import ChatCommands.Decimal.Shortest
import ChatCommands.Text.Blank

namespace ChatCommands.Template

inductive Value
  | unknown
  | none
  | bool (b : Bool)
  | whole (n : Int)
  | double (x : Float)
  | text (s : String)
  | list (items : List Value)
  | map (entries : List (Value × Value))
deriving Inhabited

namespace Value

def ofOption (v? : Option Value) : Value := v?.getD .unknown

def isUnknown : Value → Bool
  | .unknown => true
  | _ => false

/-- What a test takes as true. -/
def holds : Value → Bool
  | .unknown | .none => false
  | .bool b => b
  | .whole n => n ≠ 0
  | .double x => !(x == 0.0)
  | .text s => !s.isEmpty
  | .list items => !items.isEmpty
  | .map entries => !entries.isEmpty

/-- A double in plain digits, with a point also after a whole number. -/
def shownDouble (x : Float) : String :=
  let digits := Float.plain x
  if x.isNaN || x.isInf || digits.contains '.' then digits else digits ++ ".0"

def quotedChar (c : Char) : String :=
  match c with
  | '"' => "\\\""
  | '\\' => "\\\\"
  | '\n' => "\\n"
  | '\r' => "\\r"
  | '\t' => "\\t"
  | c => c.toString

mutual

/-- A value as it stands inside a list or a map: texts are quoted. -/
def quoted : Value → String
  | .unknown => "undefined"
  | .none => "none"
  | .bool b => if b then "true" else "false"
  | .whole n => toString n
  | .double x => shownDouble x
  | .text s => "\"" ++ String.join (s.toList.map quotedChar) ++ "\""
  | .list items => "[" ++ ", ".intercalate (quotedItems items) ++ "]"
  | .map entries => "\x7b" ++ ", ".intercalate (quotedEntries entries) ++ "\x7d"

def quotedItems : List Value → List String
  | [] => []
  | v :: rest => quoted v :: quotedItems rest

def quotedEntries : List (Value × Value) → List String
  | [] => []
  | (k, v) :: rest => (quoted k ++ ": " ++ quoted v) :: quotedEntries rest

end

/-- A value as it stands in the rendered text. -/
def shown : Value → String
  | .unknown => ""
  | .text s => s
  | v => v.quoted

/-- Holds of the whole numbers that arithmetic reaches. -/
def fits (n : Int) : Bool := -(twoTo 127 : Int) ≤ n && n < twoTo 127

/-- The whole number equal to a double, if there is one. -/
def wholeOfDouble? (x : Float) : Option Int :=
  if x.floor == x && x.abs < 9223372036854775808.0 then some x.toInt64.toInt else .none

/-- The value as a whole number. A truth counts as one or zero. -/
def whole? : Value → Option Int
  | .bool b => some (if b then 1 else 0)
  | .whole n => if fits n then some n else .none
  | .double x => wholeOfDouble? x
  | _ => .none

def double? : Value → Option Float
  | .bool b => some (if b then 1.0 else 0.0)
  | .whole n => some (Float.ofInt n)
  | .double x => some x
  | _ => .none

/-- Two values on common ground. -/
inductive Pair
  | whole (a b : Int)
  | double (x y : Float)
  | text (s t : String)

/-- Brings two values to common ground: doubles if one of them is a double, else whole numbers. -/
def Pair.of? (a b : Value) : Option Pair :=
  match a, b with
  | .text s, .text t => some (.text s t)
  | .double x, b => b.double?.map (.double x)
  | a, .double y => a.double?.map (.double · y)
  | a, b => do return .whole (← a.whole?) (← b.whole?)

/-- Where values without common ground stand to each other. -/
def rank : Value → Nat
  | .unknown => 0
  | .none => 1
  | .bool _ => 2
  | .whole _ | .double _ => 3
  | .text _ => 4
  | .list _ => 5
  | .map _ => 6

def compareDoubles (x y : Float) : Ordering :=
  if x < y then .lt else if y < x then .gt else if x == y then .eq else compare x.toBits y.toBits

def comparePlain (a b : Value) : Ordering :=
  match Pair.of? a b with
  | some (.whole m n) => compare m n
  | some (.double x y) => compareDoubles x y
  | some (.text s t) => compare s t
  | .none => compare a.rank b.rank

mutual

/-- The order of all values. Lists and maps are compared entry by entry. -/
def order : Value → Value → Ordering
  | .list xs, b =>
    match b with
    | .list ys => orderItems xs ys
    | b => compare 5 b.rank
  | .map xs, b =>
    match b with
    | .map ys => orderEntries xs ys
    | b => compare 6 b.rank
  | a, b => comparePlain a b

def orderItems : List Value → List Value → Ordering
  | [], [] => .eq
  | [], _ => .lt
  | _, [] => .gt
  | x :: xs, y :: ys => (order x y).then (orderItems xs ys)

def orderEntries : List (Value × Value) → List (Value × Value) → Ordering
  | [], [] => .eq
  | [], _ => .lt
  | _, [] => .gt
  | (k, v) :: xs, (l, w) :: ys => ((order k l).then (order v w)).then (orderEntries xs ys)

end

def same (a b : Value) : Bool := a.order b == .eq

def size? : Value → Option Nat
  | .text s => some s.length
  | .list items => some items.length
  | .map entries => some entries.length
  | _ => .none

/-- What a loop runs over: the characters of a text, the items of a list, the keys of a map. -/
def items? : Value → Option (List Value)
  | .unknown | .none => some []
  | .text s => some (s.toList.map fun c => .text c.toString)
  | .list items => some items
  | .map entries => some (entries.map (·.1))
  | _ => .none

def valueAt? (key : Value) (entries : List (Value × Value)) : Option Value :=
  (entries.find? fun e => e.1.same key).map (·.2)

/-- The item at a place, counted from the end when it is negative. -/
def at? (items : List Value) (place : Int) : Option Value :=
  if 0 ≤ place then items[place.toNat]?
  else if place.natAbs ≤ items.length then items[items.length - place.natAbs]?
  else .none

/-- A part of a value. Nothing has parts that is not known itself; a part that is not there is unknown. -/
def part (v key : Value) : Option Value :=
  match v with
  | .unknown => .none
  | .list items => some (ofOption (key.whole?.bind (at? items)))
  | .text s => some (ofOption (key.whole?.bind (at? (s.toList.map fun c => .text c.toString))))
  | .map entries => some (ofOption (valueAt? key entries))
  | _ => some .unknown

/-- Keeps the entries of a map in the order of their keys. The later entry of a key counts. -/
def insertEntry (key value : Value) : List (Value × Value) → List (Value × Value)
  | [] => [(key, value)]
  | (k, v) :: rest =>
    match key.order k with
    | .lt => (key, value) :: (k, v) :: rest
    | .eq => (k, value) :: rest
    | .gt => (k, v) :: insertEntry key value rest

def ofEntries (entries : List (Value × Value)) : Value :=
  .map (entries.foldl (fun m e => insertEntry e.1 e.2 m) [])

/-- Holds when a list has an item, a map a key, or a text a piece. -/
def has (v item : Value) : Option Bool :=
  match v with
  | .unknown | .none => some false
  | .text s => some (Text.contains s item.shown)
  | .list items => some (items.any (·.same item))
  | .map entries => some (valueAt? item entries).isSome
  | _ => .none

end Value

end ChatCommands.Template
