import ChatCommands.Json.Reading

namespace ChatCommands.Json

abbrev Reader (α : Type) := Reading → Except Defect α

namespace Reader

def string : Reader String
  | .string s => .ok s
  | r => .error r.refuse

def bool : Reader Bool
  | .bool b => .ok b
  | r => .error r.refuse

/-- Whole numbers below `limit`. -/
def natural (limit : Nat) : Reader Nat
  | .whole n => if 0 ≤ n ∧ n < limit then .ok n.toNat else .error .mismatch
  | r => .error r.refuse

/-- Whole numbers of 64 bits. -/
def integer : Reader Int
  | .whole n => if -9223372036854775808 ≤ n ∧ n < 9223372036854775808 then .ok n else .error .mismatch
  | r => .error r.refuse

/-- Numbers of either kind. -/
def number : Reader Float
  | .whole n => .ok (Float.ofInt n)
  | .double x => .ok x
  | r => .error r.refuse

/-- A value, or null where there is none. -/
def optional {α : Type} (read : Reader α) : Reader (Option α)
  | .null => .ok none
  | r => some <$> read r

def list {α : Type} (read : Reader α) : Reader (List α)
  | .array items fault? => do
    let values ← items.mapM read
    Reading.faultNeeded fault?
    return values
  | .unusable (.array _ _) => .error .malformed
  | r => .error r.refuse

end Reader

/-- A field of a record. One that may be absent has a value for that case. -/
structure Field where
  key : String
  type : Type
  read : Reader type
  absent? : Option type

def Field.required {α : Type} (key : String) (read : Reader α) : Field := ⟨key, α, read, none⟩

def Field.default {α : Type} (key : String) (read : Reader α) (value : α) : Field := ⟨key, α, read, some value⟩

/-- A field that is null or absent where it has no value. -/
def Field.optional {α : Type} (key : String) (read : Reader α) : Field :=
  ⟨key, Option α, read.optional, some none⟩

/-- One value for each field. -/
def Values : List Field → Type
  | [] => Unit
  | f :: fs => f.type × Values fs

/-- The values of the fields met so far. -/
def Slots : List Field → Type
  | [] => Unit
  | f :: fs => Option f.type × Slots fs

namespace Slots

def empty : (fs : List Field) → Slots fs
  | [] => ()
  | _ :: fs => (none, empty fs)

/-- Takes a member in. A field is met once; what is no field is passed over. -/
def put : (fs : List Field) → String → Reading → Slots fs → Except Defect (Slots fs)
  | [], _, r, slots => do
    r.pass
    return slots
  | f :: fs, key, r, (slot, slots) =>
    if key = f.key then
      match slot with
      | some _ => .error .mismatch
      | none => do
        let value ← f.read r
        return (some value, slots)
    else do
      let slots ← put fs key r slots
      return (slot, slots)

/-- Takes all members in, one after another. -/
def putAll (fs : List Field) : List (Option String × Reading) → Slots fs → Except Defect (Slots fs)
  | [], slots => .ok slots
  | (none, _) :: _, _ => .error .malformed
  | (some key, r) :: rest, slots => do
    let slots ← put fs key r slots
    putAll fs rest slots

/-- The values of all fields, with those filled in that may be absent. -/
def values : (fs : List Field) → Slots fs → Except Defect (Values fs)
  | [], _ => .ok ()
  | f :: fs, (slot, slots) =>
    match slot <|> f.absent? with
    | none => .error .mismatch
    | some value => do
      let rest ← values fs slots
      return (value, rest)

end Slots

/-- The values of fields that are written in order. Fields at the end may be absent; nothing may come
after the last field. -/
def inOrder : (fs : List Field) → List Reading → Option Fault → Except Defect (Values fs)
  | [], [], fault? => Reading.faultNeeded fault?
  | [], _ :: _, _ => .error .malformed
  | f :: fs, [], fault? => do
    Reading.faultNeeded fault?
    match f.absent? with
    | none => .error .mismatch
    | some value =>
      let rest ← inOrder fs [] fault?
      return (value, rest)
  | f :: fs, item :: items, fault? => do
    let value ← f.read item
    let rest ← inOrder fs items fault?
    return (value, rest)

/-- Reads a tuple, which is written as an array only. -/
def tuple (fs : List Field) : Reader (Values fs)
  | .array items fault? => inOrder fs items fault?
  | .unusable (.array _ _) => .error .malformed
  | r => .error r.refuse

/-- Reads a record. -/
def record (fs : List Field) : Reader (Values fs)
  | .object members fault? => do
    let slots ← Slots.putAll fs members (Slots.empty fs)
    Reading.faultNeeded fault?
    slots.values
  | .array items fault? => inOrder fs items fault?
  | .unusable (.object _ _) => .error .malformed
  | .unusable (.array _ _) => .error .malformed
  | r => .error r.refuse

end ChatCommands.Json
