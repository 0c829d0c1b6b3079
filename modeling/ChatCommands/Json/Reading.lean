import ChatCommands.Json.Value

namespace ChatCommands

/-- Why a text does not hold the value looked for. -/
inductive Defect where
  /-- The text ends too early. -/
  | ended
  /-- The text is no JSON. -/
  | malformed
  /-- The text is JSON of another shape. -/
  | mismatch
deriving DecidableEq

/-- A place where a text stops being JSON. It counts in one way when the value there is needed, and may
count in another when the value is passed over. -/
structure Fault where
  needed : Defect
  passed : Defect
deriving DecidableEq

def Fault.same (d : Defect) : Fault := ⟨d, d⟩

/-- A JSON value as far as it could be read. A list that breaks off between two of its entries says so
in its second part; one that breaks off within an entry ends with that entry. -/
inductive Reading where
  | null
  | bool (b : Bool)
  | whole (n : Int)
  | double (x : Float)
  | string (s : String)
  | array (items : List Reading) (fault? : Option Fault)
  /-- A key that cannot be used as text is missing. -/
  | object (members : List (Option String × Reading)) (fault? : Option Fault)
  /-- A value that can be passed over, but cannot be used. -/
  | unusable (value : Reading)
  | fault (f : Fault)

mutual

/-- The reading of a text that holds this very value. -/
def Json.reading : Json → Reading
  | .null => .null
  | .bool b => .bool b
  | .whole n => .whole n
  | .double x => .double x
  | .string s => .string s
  | .array items => .array (Json.readings items) none
  | .object members => .object (Json.memberReadings members) none

def Json.readings : List Json → List Reading
  | [] => []
  | item :: rest => item.reading :: Json.readings rest

def Json.memberReadings : List (String × Json) → List (Option String × Reading)
  | [] => []
  | (key, value) :: rest => (some key, value.reading) :: Json.memberReadings rest

end

namespace Reading

def faultPassed : Option Fault → Except Defect Unit
  | some f => .error f.passed
  | none => .ok ()

def faultNeeded : Option Fault → Except Defect Unit
  | some f => .error f.needed
  | none => .ok ()

mutual

/-- Passes over a value. -/
def pass : Reading → Except Defect Unit
  | .array items fault? => do
    passItems items
    faultPassed fault?
  | .object members fault? => do
    passMembers members
    faultPassed fault?
  | .unusable value => value.pass
  | .fault f => .error f.passed
  | _ => .ok ()

def passItems : List Reading → Except Defect Unit
  | [] => .ok ()
  | item :: rest => do
    item.pass
    passItems rest

def passMembers : List (Option String × Reading) → Except Defect Unit
  | [] => .ok ()
  | (_, value) :: rest => do
    value.pass
    passMembers rest

end

mutual

/-- The whole value, of any shape. -/
def whole? : Reading → Except Defect Json
  | .null => .ok .null
  | .bool b => .ok (.bool b)
  | .whole n => .ok (.whole n)
  | .double x => .ok (.double x)
  | .string s => .ok (.string s)
  | .array items fault? => do
    let values ← wholeItems items
    faultNeeded fault?
    return .array values
  | .object members fault? => do
    let values ← wholeMembers members
    faultNeeded fault?
    return .object values
  | .unusable _ => .error .malformed
  | .fault f => .error f.needed

def wholeItems : List Reading → Except Defect (List Json)
  | [] => .ok []
  | item :: rest => do
    let value ← item.whole?
    return value :: (← wholeItems rest)

def wholeMembers : List (Option String × Reading) → Except Defect (List (String × Json))
  | [] => .ok []
  | (none, _) :: _ => .error .malformed
  | (some key, r) :: rest => do
    let value ← r.whole?
    return (key, value) :: (← wholeMembers rest)

end

mutual

/-- How deep arrays and objects lie within each other. -/
def height : Reading → Nat
  | .array items _ => heightItems items + 1
  | .object members _ => heightMembers members + 1
  | .unusable value => value.height
  | _ => 0

def heightItems : List Reading → Nat
  | [] => 0
  | item :: rest => max item.height (heightItems rest)

def heightMembers : List (Option String × Reading) → Nat
  | [] => 0
  | (_, value) :: rest => max value.height (heightMembers rest)

end

/-- What is wrong with a value where another kind of value is looked for. Arrays and objects are refused
before they are read. -/
def refuse : Reading → Defect
  | .fault f => f.needed
  | .unusable (.array _ _) => .mismatch
  | .unusable (.object _ _) => .mismatch
  | .unusable _ => .malformed
  | _ => .mismatch

end Reading

end ChatCommands
