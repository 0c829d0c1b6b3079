import ChatCommands.Registry

namespace ChatCommands.Help

variable {α : Type}

def exampleLine (lead : String) (e : Example) : String :=
  s!"\t`{lead}{e.invocation}` - {e.explanation}"

/-- Points to the help of a command. -/
def hint (lead : String) (c : Command α) : String :=
  s!"(Use `{lead}help {c.fullName}` for more details)"

def usageLine (lead : String) (c : Command α) : String :=
  s!"The correct usage is `{lead}{c.usageText}`\n\n"

/-- Answers an invocation that stops at a branch. -/
def branchUsage (lead : String) (c : Command α) : String := usageLine lead c ++ hint lead c

/-- Answers an invocation whose tokens do not match the usage of a leaf. -/
def leafUsage (lead : String) (c : Command α) : String :=
  let examples := c.profile.documentation.examples
  let shown :=
    if examples.isEmpty then ""
    else "Examples:\n" ++ String.join (examples.map fun e => exampleLine lead e ++ "\n")
  usageLine lead c ++ shown ++ hint lead c

/-- Holds of the commands that a listing shows to a viewer. -/
def visibleTo (viewerIsOwner : Bool) (c : Command α) : Bool :=
  !c.profile.hidden && (!c.profile.ownerOnly || viewerIsOwner)

/-- The visible commands of a group in order of registration. -/
def listed (r : Registry α) (viewerIsOwner : Bool) (g : Group) : List (Command α) :=
  r.commands.filter fun c => c.profile.group == g.name && visibleTo viewerIsOwner c

/-- The line of one command. A command for the owner alone is marked. -/
def line (lead : String) (c : Command α) : String :=
  let mark := if c.profile.ownerOnly then " (!)" else ""
  s!"  `{lead}{c.name}` - {c.description}{mark}\n"

def lines (lead : String) (cs : List (Command α)) : String := String.join (cs.map (line lead))

/-- The part of the listing that belongs to a group; a group with nothing to show has none. -/
def section? (r : Registry α) (lead : String) (viewerIsOwner : Bool) (g : Group) : Option String :=
  match listed r viewerIsOwner g with
  | [] => none
  | cs => some (s!"__{g.title}__\n" ++ lines lead cs)

/-- All visible commands, group by group. -/
def general (r : Registry α) (lead : String) (viewerIsOwner : Bool) : String :=
  "**Bot Commands**\n" ++
    s!"(Use `{lead}help [command]` for more info on a single command)\n" ++
    String.join (r.groups.filterMap (section? r lead viewerIsOwner))

def ofCommand (lead : String) (c : Command α) : String :=
  let p := c.profile
  let details :=
    match p.documentation.details? with
    | some text => s!"\n\n{text}"
    | none => ""
  let aliases :=
    if p.aliases.isEmpty then ""
    else "\n\n**Aliases**: " ++ ", ".intercalate (p.aliases.map fun name => s!"`{lead}{name}`")
  let examples :=
    if p.documentation.examples.isEmpty then ""
    else
      "\n\n**Examples**:" ++
        String.join (p.documentation.examples.map fun e => "\n" ++ exampleLine lead e)
  s!"`{lead}{c.fullName}`: {c.description}" ++ details ++ aliases ++
    s!"\n\n**Usage**: `{lead}{c.usageText}`" ++ examples

def ofGroup (r : Registry α) (lead : String) (viewerIsOwner : Bool) (g : Group) : String :=
  s!"__{g.title}__ commands: {g.description}\n" ++ lines lead (listed r viewerIsOwner g)

/-- The answer to a question for help: the listing when nothing is asked for, else the help of the
command at that path, else that of the group of that name. -/
def answer (r : Registry α) (lead : String) (viewerIsOwner : Bool) (question : String) : String :=
  let query := Text.trim question
  if query.isEmpty then general r lead viewerIsOwner
  else
    match r.resolve? query with
    | some c => ofCommand lead c
    | none =>
      match r.group? query with
      | some g => ofGroup r lead viewerIsOwner g
      | none => s!"Could not find command or command group `{query}`"

end ChatCommands.Help
