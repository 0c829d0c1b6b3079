import ChatCommands.Group
import ChatCommands.RateLimit
import ChatCommands.Usage

namespace ChatCommands

/-- An invocation, without the command prefix, and what it does. -/
structure Example where
  invocation : String
  explanation : String
deriving DecidableEq

/-- What help tells about a command. -/
structure Documentation where
  description : String
  details? : Option String := none
  examples : List Example := []

/-- A command as its author writes it. Nothing in it has been checked. -/
structure Draft (α : Type) where
  name : String
  aliases : List String := []
  group? : Option String := none
  ownerOnly : Bool := false
  dmAllowed : Bool := false
  hidden : Bool := false
  documentation : Documentation
  rateLimit? : Option RateLimit := none
  arguments : List Argument := []
  subcommands : List (Draft α) := []
  action? : Option α := none

/-- What branches and leaves have in common. `parent?` is the path of the command above. -/
structure Profile where
  name : String
  aliases : List String
  group : String
  ownerOnly : Bool
  dmAllowed : Bool
  hidden : Bool
  documentation : Documentation
  rateLimit? : Option RateLimit
  parent? : Option String

/-- A command that has been checked: a branch that owns subcommands, or a leaf that takes arguments and runs an
action. What an action does is said where commands are run. -/
inductive Command (α : Type) where
  | branch (profile : Profile) (children : List (Command α))
  | leaf (profile : Profile) (usage : Usage) (action : α)

namespace Profile

/-- The path from the top-level command down to this one, with blanks between. -/
def fullName (p : Profile) : String := Name.under p.parent? p.name

/-- Every name that the command answers to. -/
def names (p : Profile) : List String := p.name :: p.aliases

/-- What counts the hits on the command, if it has a limit. -/
def limiter? (p : Profile) : Option Limiter := p.rateLimit?.map (·.limiter p.fullName)

end Profile

namespace Command

variable {α : Type}

def profile : Command α → Profile
  | branch p _ => p
  | leaf p _ _ => p

def name (c : Command α) : String := c.profile.name

def fullName (c : Command α) : String := c.profile.fullName

def names (c : Command α) : List String := c.profile.names

def limiter? (c : Command α) : Option Limiter := c.profile.limiter?

def description (c : Command α) : String := c.profile.documentation.description

def children : Command α → List (Command α)
  | branch _ cs => cs
  | leaf _ _ _ => []

def usage? : Command α → Option Usage
  | branch _ _ => none
  | leaf _ u _ => some u

/-- How the command is invoked, without the command prefix. -/
def usageText : Command α → String
  | branch p cs => p.fullName ++ " (" ++ "/".intercalate (cs.map name) ++ ")"
  | leaf p u _ => if u.arguments.isEmpty then p.fullName else s!"{p.fullName} {u.shown}"

/-- Holds of the name and the aliases, letter for letter. -/
def answersTo (c : Command α) (token : String) : Bool := c.names.contains token

/-- The command among siblings that a token in lowercase names. A name comes before an alias. -/
def findLower? (siblings : List (Command α)) (token : String) : Option (Command α) :=
  (siblings.find? fun c => c.name == token) <|> siblings.find? fun c => c.profile.aliases.contains token

/-- The command among siblings that a token names, in any letter case. -/
def find? (siblings : List (Command α)) (token : String) : Option (Command α) :=
  findLower? siblings (Text.lower token)

def child? (c : Command α) (token : String) : Option (Command α) := find? c.children token

/-- The command at the end of a path that begins below `c`. Every token has to name a command. -/
def descend? (c : Command α) : List String → Option (Command α)
  | [] => some c
  | token :: rest => c.child? token >>= fun child => child.descend? rest

end Command

/-- The first name of a list that occurs earlier in it, or in `seen`. -/
def repeated? (seen : List String) : List String → Option String
  | [] => none
  | name :: rest => if seen.contains name then some name else repeated? (name :: seen) rest

namespace Command

variable {α : Type}

/-- Refuses siblings that share a name or an alias. `scope` is where they stand. -/
def checkDistinct (scope : String) (siblings : List (Command α)) : Except DefinitionError Unit :=
  match repeated? [] (siblings.flatMap names) with
  | some name => .error (.duplicateName scope name)
  | none => .ok ()

end Command

namespace Draft

variable {α : Type}

/-- The normal forms of aliases, none of which may be the name or another alias. -/
def normaliseAliases (scope : String) (seen : List String) : List String → Except DefinitionError (List String)
  | [] => .ok []
  | raw :: rest => do
    let normal ← Name.normalise raw
    if seen.contains normal then throw (.duplicateName scope normal)
    return normal :: (← normaliseAliases scope (normal :: seen) rest)

/-- The first flag set that belongs on top-level commands only. -/
def topLevelFlag? (d : Draft α) : Option TopLevelFlag :=
  if d.ownerOnly then some .ownerOnly else if d.dmAllowed then some .dmAllowed else none

/-- The checked profile of a draft below `parent?`. A draft without a group takes the `inherited` one. -/
def buildProfile (d : Draft α) (parent? : Option String) (inherited : String) :
    Except DefinitionError Profile := do
  let name ← Name.normalise d.name
  let path := Name.under parent? name
  let aliases ← normaliseAliases path [name] d.aliases
  match parent?, d.topLevelFlag? with
  | some _, some flag => throw (.topLevelOnlyFlag path flag)
  | _, _ => pure ()
  let group ←
    match d.group? with
    | some group => Name.normalise group
    | none => pure inherited
  return {
    name, aliases, group, parent?
    ownerOnly := d.ownerOnly
    dmAllowed := d.dmAllowed
    hidden := d.hidden
    documentation := d.documentation
    rateLimit? := d.rateLimit? }

mutual

/-- Checks a draft below `parent?` and all drafts under it. The first fault in order of reading is the
one reported. -/
def buildUnder (parent? : Option String) (inherited : String) : Draft α → Except DefinitionError (Command α)
  | d@⟨_, _, _, _, _, _, _, _, arguments, subcommands, action?⟩ => do
    let profile ← d.buildProfile parent? inherited
    match subcommands with
    | [] =>
      match action? with
      | none => throw (.missingAction profile.fullName)
      | some action => return .leaf profile (← Usage.ofArguments arguments) action
    | _ :: _ =>
      if !arguments.isEmpty then throw (.branchWithUsage profile.fullName)
      if action?.isSome then throw (.branchWithAction profile.fullName)
      let children ← buildAll profile.fullName profile.group subcommands
      Command.checkDistinct profile.fullName children
      return .branch profile children

def buildAll (parent inherited : String) : List (Draft α) → Except DefinitionError (List (Command α))
  | [] => .ok []
  | d :: rest => do
    let command ← buildUnder (some parent) inherited d
    return command :: (← buildAll parent inherited rest)

end

/-- Builds a top-level command. -/
def build (d : Draft α) : Except DefinitionError (Command α) := d.buildUnder none Group.default.name

end Draft

end ChatCommands
