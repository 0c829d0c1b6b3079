import ChatCommands.Name

namespace ChatCommands

/-- A named collection of commands. `title` is the name that help shows. -/
structure Group where
  name : String
  description : String
  title : String
deriving DecidableEq

namespace Group

/-- A group whose title is its name with a capital letter. -/
def make (name description : String) : Except DefinitionError Group := do
  let normal ← Name.normalise name
  return ⟨normal, description, Text.capitalise normal⟩

/-- The group of the commands that name none. -/
def default : Group := ⟨"default", "Default group for ungrouped commands", "Default"⟩

end Group

end ChatCommands
