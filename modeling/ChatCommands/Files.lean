namespace ChatCommands

/-- Why a file cannot be read. -/
inductive FileError where
  | notFound
  | permissionDenied
  | notADirectory
  | isADirectory
  | invalidData
deriving DecidableEq

/-- Files by the names on the way to them. A directory exists when some file lies below it. -/
abbrev Files := List (List String × ByteArray)

namespace Files

inductive Node where
  | directory (path : List String)
  | file (content : ByteArray)

def node? (files : Files) (path : List String) : Option Node :=
  match files.lookup path with
  | some content => some (.file content)
  | none =>
    if path.isEmpty || files.any (fun f => path.isPrefixOf f.1) then some (.directory path) else none

/-- The names of a path. An empty name stands where a slash ends the path or follows another one. -/
def names (path : String) : List String := path.splitOn "/"

/-- Follows names from a node. An empty name and a single dot stay where they are, two dots go up. -/
def follow (files : Files) : Node → List String → Except FileError Node
  | node, [] => .ok node
  | .file _, _ :: _ => .error .notADirectory
  | .directory path, name :: rest =>
    if name = "" ∨ name = "." then follow files (.directory path) rest
    else if name = ".." then
      if path.isEmpty then .error .permissionDenied else follow files (.directory path.dropLast) rest
    else
      match files.node? (path ++ [name]) with
      | some node => follow files node rest
      | none => .error .notFound

/-- The files below a directory, with their names from there on. -/
def openDirectory (files : Files) (path : String) : Except FileError Files := do
  match ← files.follow (.directory []) (names path) with
  | .file _ => throw .notADirectory
  | .directory names =>
    return files.filterMap fun (name, content) =>
      if names.isPrefixOf name then some (name.drop names.length, content) else none

/-- The text of the file at a path. -/
def readText (files : Files) (path : String) : Except FileError String := do
  if path = "" then throw .notFound
  if path.startsWith "/" then throw .permissionDenied
  match ← files.follow (.directory []) (names path) with
  | .directory _ => throw .isADirectory
  | .file content =>
    match String.fromUTF8? content with
    | some text => return text
    | none => throw .invalidData

end Files

end ChatCommands
