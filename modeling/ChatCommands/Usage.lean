import ChatCommands.Validator

namespace ChatCommands

/-- One slot of a usage. A slot with a default may be left out, and takes the default as it is; a multi
slot takes all the tokens that remain. -/
structure Argument where
  name : String
  validator : Validator := .string
  default? : Option String := none
  multi : Bool := false

namespace Argument

def isOptional (a : Argument) : Bool := a.default?.isSome

def shown (a : Argument) : String := if a.isOptional then s!"[{a.name}]" else s!"<{a.name}>"

end Argument

/-- Why a list of tokens does not match a usage. -/
inductive Mismatch where
  | tooFewTokens (expected actual : Nat)
  | tooManyTokens (expected actual : Nat)
  | rejected (argument token : String)
deriving DecidableEq

def Mismatch.message : Mismatch → String
  | tooFewTokens expected actual => s!"expected at least {expected} token(s), got {actual}"
  | tooManyTokens expected actual => s!"expected at most {expected} token(s), got {actual}"
  | rejected argument token => s!"argument '{argument}' rejected '{token}'"

/-- An ordered list of arguments. -/
structure Usage where
  arguments : List Argument

namespace Usage

def empty : Usage := ⟨[]⟩

/-- Looks for the first argument that stands in a wrong place: any argument that follows the multi
argument `multi?`, and a mandatory one once an optional one has been `seen`. -/
def misplaced? (multi? : Option String) (seen : Bool) : List Argument → Option DefinitionError
  | [] => none
  | a :: rest =>
    match multi? with
    | some multi => some (.multiNotLast multi a.name)
    | none =>
      if seen && !a.isOptional then some (.optionalBeforeMandatory a.name)
      else misplaced? (if a.multi then some a.name else none) (seen || a.isOptional) rest

/-- The usage with these arguments. Mandatory arguments have to come first and a multi argument last. -/
def ofArguments (arguments : List Argument) : Except DefinitionError Usage :=
  match misplaced? none false arguments with
  | some e => .error e
  | none => .ok ⟨arguments⟩

def mandatoryCount (u : Usage) : Nat := u.arguments.countP (!·.isOptional)

def optionalCount (u : Usage) : Nat := u.arguments.countP (·.isOptional)

def hasMulti (u : Usage) : Bool := u.arguments.any (·.multi)

def shown (u : Usage) : String := " ".intercalate (u.arguments.map (·.shown))

/-- The text that a slot is given, and the tokens left for the slots after it. -/
def supply (a : Argument) : List String → Option String × List String
  | [] => (none, [])
  | token :: rest => if a.multi then (some (" ".intercalate (token :: rest)), []) else (some token, rest)

/-- Gives each slot its tokens, from left to right. `shortage` is the answer when a mandatory slot
finds none. -/
def fill (shortage : Mismatch) : List Argument → List String → Except Mismatch (List String)
  | [], _ => .ok []
  | a :: rest, tokens => do
    let (text?, left) := supply a tokens
    let value ←
      match text?, a.default? with
      | some text, _ =>
        match a.validator.check text with
        | some value => .ok value
        | none => .error (.rejected a.name text)
      | none, some default => .ok default
      | none, none => .error shortage
    return value :: (← fill shortage rest left)

/-- The values of all slots in order, or why the tokens do not match. -/
def matchTokens (u : Usage) (tokens : List String) : Except Mismatch (List String) :=
  let capacity := u.mandatoryCount + u.optionalCount
  if tokens.length < u.mandatoryCount then .error (.tooFewTokens u.mandatoryCount tokens.length)
  else if capacity < tokens.length && !u.hasMulti then .error (.tooManyTokens capacity tokens.length)
  else fill (.tooFewTokens u.mandatoryCount tokens.length) u.arguments tokens

end Usage

end ChatCommands
