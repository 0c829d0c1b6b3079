import ChatCommands.Json.Record
import ChatCommands.Validator

namespace ChatCommands.ValidatorSpec

open ChatCommands.Json

inductive Kind where
  | string
  | integer
  | integerRange
  | float
  | floatRange
  | oneOf
  | boolean
  | userMention
  | channelMention
deriving DecidableEq

namespace Kind

def all : List (String × Kind) :=
  [("string", string), ("integer", integer), ("integer_range", integerRange), ("float", float),
   ("float_range", floatRange), ("one_of", oneOf), ("boolean", boolean), ("user_mention", userMention),
   ("channel_mention", channelMention)]

def read (r : Reading) : Except Defect Kind := do
  match all.lookup (← Reader.string r) with
  | some kind => return kind
  | none => throw .mismatch

/-- A kind that takes nothing. Members that it does not know do no harm, but array entries do. -/
def bare (spec : ValidatorSpec) : Json → Except Defect ValidatorSpec
  | .array (_ :: _) => .error .mismatch
  | _ => .ok spec

/-- What a kind takes, from the rest of the object or array. -/
def build (kind : Kind) (rest : Json) : Except Defect ValidatorSpec :=
  let fields (fs : List Field) : Except Defect (Values fs) :=
    (record fs rest.reading).mapError fun _ => .mismatch
  match kind with
  | string => bare .string rest
  | integer => bare .integer rest
  | integerRange => do
    let (min, max, _) ← fields [.required "min" Reader.integer, .required "max" Reader.integer]
    return .integerRange min max
  | float => bare .float rest
  | floatRange => do
    let (min, max, _) ← fields [.required "min" Reader.number, .required "max" Reader.number]
    return .floatRange min max
  | oneOf => do
    let (options, _) ← fields [.required "options" (Reader.list Reader.string)]
    return .oneOf options
  | boolean => bare .boolean rest
  | userMention => bare .userMention rest
  | channelMention => bare .channelMention rest

end Kind

/-- Finds the kind among the members of an object, wherever it stands, and reads the others whole. -/
def readMembers : List (Option String × Reading) → Option Kind → Except Defect (Option Kind × List (String × Json))
  | [], kind? => .ok (kind?, [])
  | (none, _) :: _, _ => .error .malformed
  | (some key, r) :: rest, kind? => do
    if key = "type" then
      if kind?.isSome then throw .mismatch
      let kind ← Kind.read r
      readMembers rest (some kind)
    else
      let value ← r.whole?
      let (kind?, others) ← readMembers rest kind?
      return (kind?, (key, value) :: others)

def read : Reader ValidatorSpec
  | .object members fault? => do
    let (kind?, others) ← readMembers members none
    Reading.faultNeeded fault?
    match kind? with
    | none => throw .mismatch
    | some kind => kind.build (.object others)
  | .array [] fault? => do
    Reading.faultNeeded fault?
    throw .mismatch
  | .array (first :: items) fault? => do
    let kind ← Kind.read first
    let others ← Reading.wholeItems items
    Reading.faultNeeded fault?
    kind.build (.array others)
  | .unusable (.object _ _) => .error .malformed
  | .unusable (.array _ _) => .error .malformed
  | r => .error r.refuse

def toJson : ValidatorSpec → Json
  | string => .object [("type", .string "string")]
  | integer => .object [("type", .string "integer")]
  | integerRange min max => .object [("type", .string "integer_range"), ("min", .whole min), ("max", .whole max)]
  | float => .object [("type", .string "float")]
  | floatRange min max => .object [("type", .string "float_range"), ("min", .double min), ("max", .double max)]
  | oneOf options => .object [("type", .string "one_of"), ("options", .strings options)]
  | boolean => .object [("type", .string "boolean")]
  | userMention => .object [("type", .string "user_mention")]
  | channelMention => .object [("type", .string "channel_mention")]

end ChatCommands.ValidatorSpec
