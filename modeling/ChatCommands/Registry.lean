import ChatCommands.Catalog
import ChatCommands.Config

namespace ChatCommands

/-- The top-level commands and the groups. Registration that fails leaves them as they were, but for the two
operations that work in steps: they keep the steps before the one that fails. -/
structure Registry (α : Type) where
  commands : List (Command α)
  groups : List Group

/-- The actions of the commands that every bot may have. -/
structure BuiltinActions (α : Type) where
  help : α
  ping : α
  shutdown : α

namespace Registry

variable {α : Type}

/-- The registry that holds nothing but the default group. -/
def new : Registry α := ⟨[], [Group.default]⟩

/-- The group of a name in any letter case. -/
def group? (r : Registry α) (name : String) : Option Group :=
  let wanted := Text.lower name
  r.groups.find? fun g => g.name == wanted

/-- The top-level command that a token names. -/
def command? (r : Registry α) (token : String) : Option (Command α) := Command.find? r.commands token

/-- The command at the end of a list of tokens, of which every one has to name a command. -/
def follow? (r : Registry α) : List String → Option (Command α)
  | [] => none
  | token :: rest => r.command? token >>= fun c => c.descend? rest

/-- The command at a path. -/
def resolve? (r : Registry α) (path : String) : Option (Command α) := r.follow? (Text.words path)

def addGroup (r : Registry α) (g : Group) : Except DefinitionError (Registry α) :=
  if (r.group? g.name).isSome then .error (.duplicateGroup g.name)
  else .ok { r with groups := r.groups ++ [g] }

/-- Adds groups one by one. The first that is refused ends it; those before it stay. -/
def addGroups (r : Registry α) : List Group → Registry α × Option DefinitionError
  | [] => (r, none)
  | g :: rest =>
    match r.addGroup g with
    | .error e => (r, some e)
    | .ok after => after.addGroups rest

/-- Checks that the group of one command is registered. -/
def checkGroup (r : Registry α) (p : Profile) : Except DefinitionError Unit :=
  if (r.group? p.group).isSome then .ok () else .error (.unknownGroup p.fullName p.group)

mutual

/-- Checks that the groups of a command and of all commands below it are registered, and that its
subcommands are told apart by their names. -/
def checkGroups (r : Registry α) : Command α → Except DefinitionError Unit
  | .leaf p _ _ => r.checkGroup p
  | .branch p children => do
    r.checkGroup p
    Command.checkDistinct p.fullName children
    r.checkAllGroups children

def checkAllGroups (r : Registry α) : List (Command α) → Except DefinitionError Unit
  | [] => .ok ()
  | c :: rest => do
    r.checkGroups c
    r.checkAllGroups rest

end

/-- Adds a built command. None of its names may already name a top-level command. -/
def addCommand (r : Registry α) (c : Command α) : Except DefinitionError (Registry α) :=
  match c.names.find? fun name => (r.command? name).isSome with
  | some taken => .error (.duplicateName "top level" taken)
  | none => do
    r.checkGroups c
    return { r with commands := r.commands ++ [c] }

/-- Builds a draft and adds the command. -/
def addDraft (r : Registry α) (d : Draft α) : Except DefinitionError (Registry α) := do
  r.addCommand (← d.build)

/-- Adds all groups and commands of a catalog, or nothing. -/
def addCatalog [TemplateEngine] (r : Registry α) (c : Catalog) (bindings : Bindings α) :
    Except DefinitionError (Registry α) := do
  let groups ← c.toGroups
  let staged ←
    match r.addGroups groups with
    | (_, some e) => throw e
    | (staged, none) => pure staged
  (← c.toDrafts bindings).foldlM addDraft staged

end Registry

namespace Builtin

/-- The group of the built-in commands. -/
def group : Group := ⟨"util", "Built-in commands", "Util"⟩

variable {α : Type}

def ping (action : α) : Draft α where
  name := "ping"
  group? := some group.name
  dmAllowed := true
  documentation :=
    ⟨"Check if the bot is alive", some "Ping the bot to check if the bot is still alive", []⟩
  action? := some action

def help (action : α) : Draft α where
  name := "help"
  group? := some group.name
  dmAllowed := true
  documentation :=
    ⟨"List all the available commands, or get help for a particular command", none,
      [⟨"help", "List out all the help commands"⟩,
       ⟨"help ping", "Get specific help text for the `ping` command"⟩]⟩
  arguments := [⟨"command", .string, some "", true⟩]
  action? := some action

def shutdown (action : α) : Draft α where
  name := "shutdown"
  group? := some group.name
  ownerOnly := true
  documentation :=
    ⟨"Shutdown the bot", some "Gracefully shuts down the bot. This will make the bot offline!", []⟩
  action? := some action

def drafts (actions : BuiltinActions α) : List (Draft α) :=
  [ping actions.ping, help actions.help, shutdown actions.shutdown]

end Builtin

namespace Registry

variable {α : Type}

/-- Adds drafts one by one. The first that is refused ends it; those before it stay. -/
def addDrafts (r : Registry α) : List (Draft α) → Registry α × Option DefinitionError
  | [] => (r, none)
  | d :: rest =>
    match r.addDraft d with
    | .error e => (r, some e)
    | .ok after => after.addDrafts rest

/-- Adds the built-in group, then the built-in commands one by one. -/
def addBuiltins (r : Registry α) (actions : BuiltinActions α) : Registry α × Option DefinitionError :=
  match r.addGroup Builtin.group with
  | .error e => (r, some e)
  | .ok after => after.addDrafts (Builtin.drafts actions)

/-- The registry that a bot with these settings begins with. -/
def forConfig (config : Config) (actions : BuiltinActions α) : Except DefinitionError (Registry α) :=
  if config.registerDefaults then
    match new.addBuiltins actions with
    | (r, none) => .ok r
    | (_, some e) => .error e
  else .ok new

end Registry

end ChatCommands
