import ChatCommands.Files
import ChatCommands.Format.Catalog
import ChatCommands.Format.Config
import ChatCommands.Json.Parse

namespace ChatCommands

/-- Why settings or a catalog cannot be had. -/
inductive LoadError where
  | file (path : String) (cause : FileError)
  | parse (path : String) (defect : Defect)
  | unusableLead (lead : String)
deriving DecidableEq

/-- Stands for the path of a text that comes from no file. -/
def inlinePath : String := "<inline>"

/-- The value that a text at `path` holds. -/
def parseAs {α : Type} (read : Json.Reader α) (path source : String) : Except LoadError α :=
  ((Json.parse source).as read).mapError (.parse path)

/-- The value that a file holds. -/
def loadAs {α : Type} (read : Json.Reader α) (files : Files) (path : String) : Except LoadError α := do
  let source ← (files.readText path).mapError (.file path)
  parseAs read path source

namespace Config

/-- Settings with a lead that commands can begin with. -/
def checked (c : Config) : Except LoadError Config :=
  if c.hasUsableLead then .ok c else .error (.unusableLead c.lead)

def ofText (source : String) : Except LoadError Config := do
  (← parseAs read inlinePath source).checked

def load (files : Files) (path : String) : Except LoadError Config := do
  (← loadAs read files path).checked

end Config

namespace Catalog

def ofText (source : String) : Except LoadError Catalog := parseAs read inlinePath source

def load (files : Files) (path : String) : Except LoadError Catalog := loadAs read files path

end Catalog

end ChatCommands
