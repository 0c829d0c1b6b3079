import ChatCommands.Decimal.Shortest

namespace ChatCommands

/-- A JSON value. Numbers are whole or doubles; members keep their order. -/
inductive Json where
  | null
  | bool (b : Bool)
  | whole (n : Int)
  | double (x : Float)
  | string (s : String)
  | array (items : List Json)
  | object (members : List (String × Json))

namespace Json

/-- The member of an object under a key. -/
def member? (key : String) : Json → Option Json
  | object members => members.lookup key
  | _ => none

def ofOption {α : Type} (f : α → Json) : Option α → Json
  | some a => f a
  | none => null

def strings (texts : List String) : Json := array (texts.map string)

def hexDigits (n : Nat) : List Char :=
  let digits := Nat.toDigits 16 n
  List.replicate (4 - digits.length) '0' ++ digits

/-- Quotes, backslashes, control characters and everything that ends a line are escaped, so that a text
is one line. -/
def escape (c : Char) : List Char :=
  if c = '"' ∨ c = '\\' then ['\\', c]
  else if c.toNat < 0x20 ∨ c.toNat = 0x85 ∨ c.toNat = 0x2028 ∨ c.toNat = 0x2029 then
    '\\' :: 'u' :: hexDigits c.toNat
  else [c]

def quote (s : String) : String := String.ofList ('"' :: s.toList.flatMap escape ++ ['"'])

/-- A double as a number with an exponent, which marks it as a double. -/
def renderDouble (x : Float) : String :=
  let sign := if x.toBits.toNat < twoTo 63 then "" else "-"
  let bits := x.toBits.toNat % twoTo 63
  if bits = 0 then sign ++ "0.0"
  else
    let d := Decimal.shortest bits
    s!"{sign}{d.coefficient}e{d.exponent}"

mutual

def render : Json → String
  | null => "null"
  | bool b => if b then "true" else "false"
  | whole n => s!"{n}"
  | double x => renderDouble x
  | string s => quote s
  | array items => "[" ++ ",".intercalate (renderItems items) ++ "]"
  | object members => "\x7b" ++ ",".intercalate (renderMembers members) ++ "\x7d"

def renderItems : List Json → List String
  | [] => []
  | item :: rest => render item :: renderItems rest

def renderMembers : List (String × Json) → List String
  | [] => []
  | (key, value) :: rest => (quote key ++ ":" ++ render value) :: renderMembers rest

end

end Json

end ChatCommands
