import ChatCommands.Command

namespace ChatCommands

structure ArgumentDeclaration where
  name : String
  validator : ValidatorSpec := .string
  isOptional : Bool := false
  multi : Bool := false
  default? : Option String := none

structure RateLimitDeclaration where
  windowSeconds : Nat
  maxHits : Nat
  notice? : Option String := none

structure CommandDeclaration where
  name : String
  description : String
  aliases : List String := []
  group? : Option String := none
  details? : Option String := none
  examples : List Example := []
  arguments : List ArgumentDeclaration := []
  subcommands : List CommandDeclaration := []
  ownerOnly : Bool := false
  dmAllowed : Bool := false
  hidden : Bool := false
  rateLimit? : Option RateLimitDeclaration := none

structure GroupDeclaration where
  name : String
  description : String
  title? : Option String := none

/-- Groups and command trees as data. Actions are no data, so they are bound to the paths of the leaves. -/
structure Catalog where
  groups : List GroupDeclaration := []
  commands : List CommandDeclaration := []

/-- Actions by the normal form of the path of a leaf. -/
abbrev Bindings (α : Type) := List (String × α)

namespace Bindings

variable {α : Type}

def erase (path : String) (bindings : Bindings α) : Bindings α := bindings.filter fun b => b.1 != path

/-- Binds an action to a path, in place of any action bound to it before. -/
def bind (path : String) (action : α) (bindings : Bindings α) : Bindings α :=
  let normal := Name.normalisePath path
  (normal, action) :: erase normal bindings

/-- The least path, in the order of code points. -/
def least? : Bindings α → Option String
  | [] => none
  | (path, _) :: rest =>
    match least? rest with
    | none => some path
    | some other => some (if other < path then other else path)

end Bindings

namespace ArgumentDeclaration

/-- The argument declared. A default counts on optional arguments only, where it is empty unless told. -/
def toArgument (d : ArgumentDeclaration) : Except DefinitionError Argument := do
  let validator ← d.validator.build d.name
  return {
    name := d.name
    validator
    default? := if d.isOptional then some (d.default?.getD "") else none
    multi := d.multi }

end ArgumentDeclaration

namespace RateLimitDeclaration

def toRateLimit [TemplateEngine] (d : RateLimitDeclaration) : Except DefinitionError RateLimit := do
  let limit ← RateLimit.make (d.windowSeconds * 1000) d.maxHits
  match d.notice? with
  | some source => limit.withNotice source
  | none => return limit

end RateLimitDeclaration

namespace CommandDeclaration

variable {α : Type} [TemplateEngine]

mutual

/-- The draft declared below `parent?`, and the bindings that are left when each leaf has taken the
action bound to its path. -/
def toDraft (parent? : Option String) (bindings : Bindings α) :
    CommandDeclaration → Except DefinitionError (Draft α × Bindings α)
  | ⟨rawName, description, aliases, group?, details?, examples, arguments, subcommands, ownerOnly,
      dmAllowed, hidden, rateLimit?⟩ => do
    let name ← Name.normalise rawName
    let path := Name.under parent? name
    let limit? ← rateLimit?.mapM (·.toRateLimit)
    let slots ← arguments.mapM (·.toArgument)
    let draft : Draft α := {
      name, aliases, group?, ownerOnly, dmAllowed, hidden
      documentation := ⟨description, details?, examples⟩
      rateLimit? := limit?
      arguments := slots }
    match subcommands with
    | [] =>
      match bindings.lookup path with
      | none => throw (.unboundAction path)
      | some action => return ({ draft with action? := some action }, bindings.erase path)
    | _ :: _ =>
      let (drafts, left) ← toDrafts (some path) bindings subcommands
      return ({ draft with subcommands := drafts }, left)

def toDrafts (parent? : Option String) (bindings : Bindings α) :
    List CommandDeclaration → Except DefinitionError (List (Draft α) × Bindings α)
  | [] => .ok ([], bindings)
  | d :: rest => do
    let (draft, left) ← toDraft parent? bindings d
    let (drafts, unused) ← toDrafts parent? left rest
    return (draft :: drafts, unused)

end

end CommandDeclaration

def GroupDeclaration.toGroup (d : GroupDeclaration) : Except DefinitionError Group := do
  let group ← Group.make d.name d.description
  return { group with title := d.title?.getD group.title }

namespace Catalog

variable {α : Type}

def toGroups (c : Catalog) : Except DefinitionError (List Group) := c.groups.mapM (·.toGroup)

/-- The drafts of all commands. Every leaf needs an action, and every binding a leaf. -/
def toDrafts [TemplateEngine] (c : Catalog) (bindings : Bindings α) : Except DefinitionError (List (Draft α)) := do
  let (drafts, unused) ← CommandDeclaration.toDrafts none bindings c.commands
  match unused.least? with
  | some path => throw (.unusedAction path)
  | none => return drafts

end Catalog

end ChatCommands
