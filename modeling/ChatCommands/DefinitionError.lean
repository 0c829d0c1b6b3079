namespace ChatCommands

/-- Flags that only a top-level command may set. -/
inductive TopLevelFlag where
  | ownerOnly
  | dmAllowed
deriving DecidableEq

def TopLevelFlag.name : TopLevelFlag → String
  | ownerOnly => "owner_only"
  | dmAllowed => "dm_allowed"

/-- Why a definition is refused. None of these is ever shown to a chat user. -/
inductive DefinitionError where
  /-- A name is empty once trimmed. -/
  | emptyName
  /-- A trimmed name has a blank in it. -/
  | invalidName (name : String)
  /-- A mandatory argument comes after an optional one. -/
  | optionalBeforeMandatory (argument : String)
  /-- An argument comes after one that takes all remaining tokens. -/
  | multiNotLast (multi argument : String)
  /-- A name or alias is taken by a sibling. -/
  | duplicateName (scope name : String)
  | unknownGroup (command group : String)
  | duplicateGroup (name : String)
  | branchWithUsage (command : String)
  | branchWithAction (command : String)
  | topLevelOnlyFlag (command : String) (flag : TopLevelFlag)
  | missingAction (command : String)
  | invalidRateLimit (maxHits : Nat)
  | invalidNoticeTemplate
  | invalidValidator (argument reason : String)
  /-- A declared leaf has no action bound to its path. -/
  | unboundAction (path : String)
  /-- An action is bound to a path that no leaf is declared under. -/
  | unusedAction (path : String)
deriving DecidableEq

def DefinitionError.message : DefinitionError → String
  | emptyName => "command names, aliases and group names must not be empty"
  | invalidName name => s!"name '{name}' must not contain whitespace"
  | optionalBeforeMandatory argument =>
    s!"argument '{argument}' is mandatory but follows an optional argument"
  | multiNotLast multi argument => s!"argument '{argument}' follows multi argument '{multi}'"
  | duplicateName scope name => s!"'{name}' is already used by another command under {scope}"
  | unknownGroup command group => s!"no command group '{group}' found for command '{command}'"
  | duplicateGroup name => s!"group with name '{name}' already exists"
  | branchWithUsage command => s!"command '{command}' has subcommands and must not declare arguments"
  | branchWithAction command => s!"command '{command}' has subcommands and must not declare a run action"
  | topLevelOnlyFlag command flag =>
    s!"subcommand '{command}' must not set {flag.name}; it applies to top-level commands only"
  | missingAction command => s!"command '{command}' has no subcommands and no run action"
  | invalidRateLimit maxHits => s!"rate limit max hits must be greater or equal to 1, got {maxHits}"
  | invalidNoticeTemplate => "invalid throttle notice template"
  | invalidValidator argument reason => s!"invalid validator for argument '{argument}': {reason}"
  | unboundAction path => s!"no action bound for catalog command '{path}'"
  | unusedAction path => s!"action bound to unknown catalog command '{path}'"

end ChatCommands
