import ChatCommands.Json.Reading

namespace ChatCommands.Json

/-- Digits as far as 64 bits can hold them: their value, how many digits were taken, and the digits that
were not. -/
def takeDigits (value taken : Nat) : List Char → Nat × Nat × List Char
  | [] => (value, taken, [])
  | c :: cs =>
    let next := value * 10 + (c.toNat - '0'.toNat)
    if next < 18446744073709551616 then takeDigits next (taken + 1) cs else (value, taken, c :: cs)

/-- A number as it is written. -/
structure Numeral where
  negative : Bool
  whole : List Char
  places? : Option (List Char)
  /-- The digits of the exponent, and whether it is below zero. -/
  exponent? : Option (Bool × List Char)

/-- Scales by a power of ten: upwards at once, downwards by steps of at most 308 places. Yields nothing
when the result is too large. -/
def scale (x : Float) (exponent : Int) : Nat → Option Float
  | 0 => some 0.0
  | steps + 1 =>
    if exponent.natAbs ≤ 308 then
      let power := Float.ofScientific 1 false exponent.natAbs
      if 0 ≤ exponent then
        let y := x * power
        if y.isInf then none else some y
      else some (x / power)
    else if x == 0.0 then some x
    else if 0 ≤ exponent then none
    else scale (x / Float.ofScientific 1 false 308) (exponent + 308) steps

/-- The double that a significand and an exponent make. -/
def double? (negative : Bool) (significand : Nat) (exponent : Int) : Option Float :=
  (scale (UInt64.ofNat significand).toFloat exponent 5).map fun x => if negative then -x else x

/-- The exponent, when 32 bits can hold its digits. -/
def Numeral.shift? (n : Numeral) : Option Int :=
  match n.exponent? with
  | none => some 0
  | some (negative, digits) =>
    let value := Text.digitsValue digits
    if value < 2147483648 then some (if negative then -(value : Int) else value) else none

/-- The value of a number, and nothing when it is too large for a double. -/
def Numeral.value? (n : Numeral) : Option Reading :=
  let (significand, _, beyond) := takeDigits 0 0 n.whole
  match n.places?, n.exponent? with
  | none, none =>
    if beyond.isEmpty && !n.negative then some (.whole significand)
    else if beyond.isEmpty && 0 < significand && significand ≤ 9223372036854775808 then some (.whole (-(significand : Int)))
    else (double? n.negative significand beyond.length).map .double
  | _, _ =>
    let (significand, taken, _) := takeDigits significand 0 (n.places?.getD [])
    let exponent : Int := (beyond.length : Int) - taken
    match n.shift? with
    | some shift => (double? n.negative significand (exponent + shift)).map .double
    | none =>
      if significand = 0 ∨ n.exponent?.any (·.1) then some (.double (if n.negative then -0.0 else 0.0))
      else none

/-- A digit that is missing: at the end of the text it counts as an early end, unless the number is
passed over. -/
def missingDigit : List Char → Fault
  | [] => ⟨.ended, .malformed⟩
  | _ :: _ => .same .malformed

def splitDigits (cs : List Char) : List Char × List Char :=
  (cs.takeWhile Char.isDigit, cs.dropWhile Char.isDigit)

def wholePart (cs : List Char) : Except Fault (List Char × List Char) :=
  match splitDigits cs with
  | ([], rest) => .error (missingDigit rest)
  | ('0' :: _ :: _, _) => .error (.same .malformed)
  | parts => .ok parts

def placesPart : List Char → Except Fault (Option (List Char) × List Char)
  | '.' :: cs =>
    match splitDigits cs with
    | ([], rest) => .error (missingDigit rest)
    | (digits, rest) => .ok (some digits, rest)
  | cs => .ok (none, cs)

def exponentDigits (negative : Bool) (cs : List Char) : Except Fault (Option (Bool × List Char) × List Char) :=
  match splitDigits cs with
  | ([], rest) => .error (missingDigit rest)
  | (digits, rest) => .ok (some (negative, digits), rest)

def exponentPart : List Char → Except Fault (Option (Bool × List Char) × List Char)
  | c :: cs =>
    if c = 'e' ∨ c = 'E' then
      match cs with
      | '+' :: more => exponentDigits false more
      | '-' :: more => exponentDigits true more
      | more => exponentDigits false more
    else .ok (none, c :: cs)
  | [] => .ok (none, [])

/-- Reads a number that may begin with a minus sign. -/
def numeral (cs : List Char) : Except Fault (Numeral × List Char) := do
  let (negative, cs) :=
    match cs with
    | '-' :: rest => (true, rest)
    | _ => (false, cs)
  let (front, cs) ← wholePart cs
  let (places?, cs) ← placesPart cs
  let (exponent?, cs) ← exponentPart cs
  return (⟨negative, front, places?, exponent?⟩, cs)

end ChatCommands.Json
