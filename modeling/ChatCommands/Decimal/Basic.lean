import ChatCommands.Text.Integer

namespace ChatCommands

def twoTo (n : Nat) : Nat := Nat.pow 2 n

def tenTo (n : Nat) : Nat := Nat.pow 10 n

/-- The number `coefficient * 10 ^ exponent`. -/
structure Decimal where
  coefficient : Nat
  exponent : Int
deriving DecidableEq

namespace Decimal

/-- The number of digits that a positive number is written with. -/
def width (n : Nat) : Nat := (Nat.toDigits 10 n).length

/-- The nearest double. Numbers far beyond the largest double, and far below the smallest, are told
by their size alone. -/
def toFloat (d : Decimal) : Float :=
  let size := d.exponent + width d.coefficient
  if d.coefficient = 0 ∨ size < -400 then 0.0
  else if 400 < size then 1.0 / 0.0
  else if d.exponent < 0 then Float.ofScientific d.coefficient true d.exponent.natAbs
  else Float.ofScientific d.coefficient false d.exponent.natAbs

/-- Reads what may stand after a mark of exponent: an optional sign and digits. -/
def exponent? : List Char → Option Int
  | '-' :: cs => (Text.numeral? cs).map fun n => -(n : Int)
  | '+' :: cs => (Text.numeral? cs).map Int.ofNat
  | cs => (Text.numeral? cs).map Int.ofNat

/-- Reads digits with an optional point among them or at either end, and an optional exponent. -/
def ofChars? (cs : List Char) : Option Decimal :=
  let whole := cs.takeWhile Char.isDigit
  let rest := cs.dropWhile Char.isDigit
  let (places, tail) :=
    match rest with
    | '.' :: more => (more.takeWhile Char.isDigit, more.dropWhile Char.isDigit)
    | _ => ([], rest)
  let digits := whole ++ places
  if digits.isEmpty then none
  else
    match tail with
    | [] => some ⟨Text.digitsValue digits, -places.length⟩
    | mark :: written =>
      if mark = 'e' ∨ mark = 'E' then
        (exponent? written).map fun e => ⟨Text.digitsValue digits, e - places.length⟩
      else none

/-- Digits with a point where one is needed and never an exponent. -/
def plain (d : Decimal) : String :=
  let digits := Nat.toDigits 10 d.coefficient
  if 0 ≤ d.exponent then String.ofList (digits ++ List.replicate d.exponent.natAbs '0')
  else
    let places := d.exponent.natAbs
    let padded := List.replicate (places + 1 - digits.length) '0' ++ digits
    String.ofList (padded.take (padded.length - places) ++ '.' :: padded.drop (padded.length - places))

end Decimal

/-- The number that a token stands for: a decimal, or a name of infinity in any letter case, after an
optional sign. A name of the undefined number stands for no number. -/
def number? (token : String) : Option Float :=
  let magnitude? (cs : List Char) : Option Float :=
    let name := String.ofList (cs.map Char.toLower)
    if name = "inf" ∨ name = "infinity" then some (1.0 / 0.0)
    else (Decimal.ofChars? cs).map Decimal.toFloat
  match token.toList with
  | '-' :: cs => (magnitude? cs).map fun x => -x
  | '+' :: cs => magnitude? cs
  | cs => magnitude? cs

end ChatCommands
