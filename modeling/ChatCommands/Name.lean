import ChatCommands.DefinitionError
import ChatCommands.Text.Blank
import ChatCommands.Text.Case

namespace ChatCommands.Name

open ChatCommands.Text

/-- The form under which a name is kept: trimmed and in lowercase. A name with nothing left or with a
blank inside is refused. -/
def normalise (name : String) : Except DefinitionError String :=
  let trimmed := trim name
  if trimmed.isEmpty then .error .emptyName
  else if hasBlank trimmed then .error (.invalidName trimmed)
  else .ok (lower trimmed)

/-- The path of a command below `parent`. -/
def under (parent : Option String) (name : String) : String :=
  match parent with
  | none => name
  | some path => s!"{path} {name}"

/-- The form of a path in which two spellings of it agree: its words in lowercase, one blank apart. -/
def normalisePath (path : String) : String :=
  " ".intercalate ((words path).map lower)

end ChatCommands.Name
