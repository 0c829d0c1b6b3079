import ChatCommands.Catalog
import ChatCommands.Format.Validator

namespace ChatCommands

open ChatCommands.Json

namespace ArgumentDeclaration

def fields : List Field :=
  [.required "name" Reader.string,
   .default "validator" ValidatorSpec.read .string,
   .default "optional" Reader.bool false,
   .default "multi" Reader.bool false,
   .optional "default" Reader.string]

def read (r : Reading) : Except Defect ArgumentDeclaration := do
  let (name, validator, isOptional, multi, default?, _) ← record fields r
  return ⟨name, validator, isOptional, multi, default?⟩

def toJson (d : ArgumentDeclaration) : Json :=
  .object [
    ("name", .string d.name),
    ("validator", d.validator.toJson),
    ("optional", .bool d.isOptional),
    ("multi", .bool d.multi),
    ("default", .ofOption .string d.default?)]

end ArgumentDeclaration

namespace RateLimitDeclaration

def fields : List Field :=
  [.required "windowSeconds" (Reader.natural 18446744073709551616),
   .required "maxHits" (Reader.natural 4294967296),
   .optional "message" Reader.string]

def read (r : Reading) : Except Defect RateLimitDeclaration := do
  let (windowSeconds, maxHits, notice?, _) ← record fields r
  return ⟨windowSeconds, maxHits, notice?⟩

def toJson (d : RateLimitDeclaration) : Json :=
  .object [
    ("windowSeconds", .whole d.windowSeconds),
    ("maxHits", .whole d.maxHits),
    ("message", .ofOption .string d.notice?)]

end RateLimitDeclaration

namespace Example

def read (r : Reading) : Except Defect Example := do
  let (invocation, explanation, _) ←
    tuple [.required "0" Reader.string, .required "1" Reader.string] r
  return ⟨invocation, explanation⟩

def toJson (e : Example) : Json := .strings [e.invocation, e.explanation]

end Example

namespace CommandDeclaration

/-- The fields of a command whose subcommands are read by `inner`. -/
def fields (inner : Reader CommandDeclaration) : List Field :=
  [.required "name" Reader.string,
   .required "description" Reader.string,
   .default "aliases" (Reader.list Reader.string) [],
   .optional "group" Reader.string,
   .optional "details" Reader.string,
   .default "examples" (Reader.list Example.read) [],
   .default "usage" (Reader.list ArgumentDeclaration.read) [],
   .default "subcommands" (Reader.list inner) [],
   .default "ownerOnly" Reader.bool false,
   .default "dmAllowed" Reader.bool false,
   .default "hidden" Reader.bool false,
   .optional "rateLimit" RateLimitDeclaration.read]

/-- Reads a command whose subcommands are read by `inner`. -/
def readWith (inner : Reader CommandDeclaration) (r : Reading) : Except Defect CommandDeclaration := do
  let (name, description, aliases, group?, details?, examples, arguments, subcommands, ownerOnly,
    dmAllowed, hidden, rateLimit?, _) ← record (fields inner) r
  return ⟨name, description, aliases, group?, details?, examples, arguments, subcommands, ownerOnly,
    dmAllowed, hidden, rateLimit?⟩

/-- Reads a command whose subcommands nest less than `depth` deep. -/
def readWithin : (depth : Nat) → Reader CommandDeclaration
  | 0 => fun r => .error r.refuse
  | depth + 1 => readWith (readWithin depth)

/-- Reads a command. Subcommands cannot nest deeper than the text does. -/
def read (r : Reading) : Except Defect CommandDeclaration := readWithin (r.height + 1) r

mutual

def toJson : CommandDeclaration → Json
  | ⟨name, description, aliases, group?, details?, examples, arguments, subcommands, ownerOnly,
      dmAllowed, hidden, rateLimit?⟩ =>
    .object [
      ("name", .string name),
      ("description", .string description),
      ("aliases", .strings aliases),
      ("group", .ofOption .string group?),
      ("details", .ofOption .string details?),
      ("examples", .array (examples.map (·.toJson))),
      ("usage", .array (arguments.map (·.toJson))),
      ("subcommands", .array (allToJson subcommands)),
      ("ownerOnly", .bool ownerOnly),
      ("dmAllowed", .bool dmAllowed),
      ("hidden", .bool hidden),
      ("rateLimit", .ofOption (·.toJson) rateLimit?)]

def allToJson : List CommandDeclaration → List Json
  | [] => []
  | d :: rest => toJson d :: allToJson rest

end

end CommandDeclaration

namespace GroupDeclaration

def fields : List Field :=
  [.required "name" Reader.string,
   .required "description" Reader.string,
   .optional "displayName" Reader.string]

def read (r : Reading) : Except Defect GroupDeclaration := do
  let (name, description, title?, _) ← record fields r
  return ⟨name, description, title?⟩

def toJson (d : GroupDeclaration) : Json :=
  .object [
    ("name", .string d.name),
    ("description", .string d.description),
    ("displayName", .ofOption .string d.title?)]

end GroupDeclaration

namespace Catalog

def fields : List Field :=
  [.default "groups" (Reader.list GroupDeclaration.read) [],
   .default "commands" (Reader.list CommandDeclaration.read) []]

def read (r : Reading) : Except Defect Catalog := do
  let (groups, commands, _) ← record fields r
  return ⟨groups, commands⟩

def toJson (c : Catalog) : Json :=
  .object [
    ("groups", .array (c.groups.map (·.toJson))),
    ("commands", .array (CommandDeclaration.allToJson c.commands))]

end Catalog

namespace Group

def fields : List Field :=
  [.required "name" Reader.string,
   .required "description" Reader.string,
   .required "display_name" Reader.string]

/-- Reads a group as it is, name included. -/
def read (r : Reading) : Except Defect Group := do
  let (name, description, title, _) ← record fields r
  return ⟨name, description, title⟩

def toJson (g : Group) : Json :=
  .object [
    ("name", .string g.name),
    ("description", .string g.description),
    ("display_name", .string g.title)]

end Group

end ChatCommands
