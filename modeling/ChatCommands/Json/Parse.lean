import ChatCommands.Json.Number
import ChatCommands.Json.Quoted

namespace ChatCommands.Json

def isSpace (c : Char) : Bool := c = ' ' || c = '\n' || c = '\t' || c = '\r'

def skipSpace (cs : List Char) : List Char := cs.dropWhile isSpace

/-- A reading, and what follows it when it has no fault. -/
abbrev Read := Reading × Option (List Char)

def broken (d : Defect) : Read := (.fault (.same d), none)

/-- Reads the rest of `null`, `true` or `false`. -/
def word (r : Reading) : List Char → List Char → Read
  | [], cs => (r, some cs)
  | _ :: _, [] => broken .ended
  | x :: xs, c :: cs => if x = c then word r xs cs else broken .malformed

/-- Arrays and objects this deep within each other are not used any more. -/
def depthLimit : Nat := 128

/-- Marks what lies too deep. -/
def bound (depth : Nat) (read : Read) : Read :=
  if depth < depthLimit then read else (.unusable read.1, read.2)

def readNumber (cs : List Char) : Read :=
  match numeral cs with
  | .error f => (.fault f, none)
  | .ok (n, rest) => (n.value?.getD (.unusable .null), some rest)

def readQuoted (cs : List Char) : Read :=
  match quoted cs with
  | .error f => (.fault f, none)
  | .ok (some s, rest) => (.string s, some rest)
  | .ok (none, rest) => (.unusable .null, some rest)

/-- Puts an entry in front of the entries of an array. -/
def consItem (item : Reading) : Read → Read
  | (.array items fault?, rest?) => (.array (item :: items) fault?, rest?)
  | other => other

/-- Puts a member in front of the members of an object. -/
def consMember (key? : Option String) (value : Reading) : Read → Read
  | (.object members fault?, rest?) => (.object ((key?, value) :: members) fault?, rest?)
  | other => other

def endArray (d : Defect) : Read := (.array [] (some (.same d)), none)

def endObject (f : Fault) : Read := (.object [] (some f), none)

mutual

/-- Reads a value at a depth. No character takes more than three steps, so three times the length of the
text is fuel enough. -/
def readValue : (fuel depth : Nat) → List Char → Read
  | 0, _, _ => broken .ended
  | fuel + 1, depth, cs =>
    match skipSpace cs with
    | [] => broken .ended
    | 'n' :: rest => word .null "ull".toList rest
    | 't' :: rest => word (.bool true) "rue".toList rest
    | 'f' :: rest => word (.bool false) "alse".toList rest
    | '"' :: rest => readQuoted rest
    | '[' :: rest => bound depth (readFirstItem fuel depth rest)
    | '\x7b' :: rest => bound depth (readFirstMember fuel depth rest)
    | c :: rest => if c = '-' ∨ c.isDigit then readNumber (c :: rest) else broken .malformed

/-- Reads what follows an opening bracket. -/
def readFirstItem : (fuel depth : Nat) → List Char → Read
  | 0, _, _ => endArray .ended
  | fuel + 1, depth, cs =>
    match skipSpace cs with
    | [] => endArray .ended
    | ']' :: rest => (.array [] none, some rest)
    | cs => readItem fuel depth cs

/-- Reads an entry of an array, and the entries after it. -/
def readItem : (fuel depth : Nat) → List Char → Read
  | 0, _, _ => endArray .ended
  | fuel + 1, depth, cs =>
    match readValue fuel (depth + 1) cs with
    | (item, none) => (.array [item] none, none)
    | (item, some rest) =>
      match skipSpace rest with
      | [] => consItem item (endArray .ended)
      | ']' :: rest => consItem item (.array [] none, some rest)
      | ',' :: rest => consItem item (readItem fuel depth rest)
      | _ => consItem item (endArray .malformed)

/-- Reads what follows an opening brace. -/
def readFirstMember : (fuel depth : Nat) → List Char → Read
  | 0, _, _ => endObject (.same .ended)
  | fuel + 1, depth, cs =>
    match skipSpace cs with
    | '\x7d' :: rest => (.object [] none, some rest)
    | cs => readMember fuel depth cs

/-- Reads a member of an object, and the members after it. -/
def readMember : (fuel depth : Nat) → List Char → Read
  | 0, _, _ => endObject (.same .ended)
  | fuel + 1, depth, cs =>
    match skipSpace cs with
    | [] => endObject (.same .ended)
    | '"' :: rest =>
      match quoted rest with
      | .error f => endObject f
      | .ok (key?, rest) =>
        let (value, rest?) :=
          match skipSpace rest with
          | [] => broken .ended
          | ':' :: rest => readValue fuel (depth + 1) rest
          | _ => broken .malformed
        match rest? with
        | none => (.object [(key?, value)] none, none)
        | some rest =>
          match skipSpace rest with
          | [] => consMember key? value (endObject (.same .ended))
          | '\x7d' :: rest => consMember key? value (.object [] none, some rest)
          | ',' :: rest => consMember key? value (readMember fuel depth rest)
          | _ => consMember key? value (endObject (.same .malformed))
    | _ => endObject (.same .malformed)

end

/-- A text as a reading, and whether something other than space follows the value. -/
structure Document where
  value : Reading
  surplus : Bool

def parse (source : String) : Document :=
  let cs := source.toList
  match readValue (3 * cs.length + 3) 1 cs with
  | (value, some rest) => ⟨value, !(skipSpace rest).isEmpty⟩
  | (value, none) => ⟨value, false⟩

/-- The value that `read` makes of a text which holds that value and nothing else. -/
def Document.as {α : Type} (d : Document) (read : Reading → Except Defect α) : Except Defect α := do
  let value ← read d.value
  if d.surplus then throw .malformed
  return value

end ChatCommands.Json
