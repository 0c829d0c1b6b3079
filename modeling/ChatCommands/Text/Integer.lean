namespace ChatCommands.Text

/-- The value of a row of decimal digits. -/
def digitsValue (cs : List Char) : Nat := cs.foldl (fun n c => 10 * n + (c.toNat - '0'.toNat)) 0

/-- Holds of one or more decimal digits with nothing around them. Only the ten ASCII digits count. -/
def isNumeral (cs : List Char) : Bool := !cs.isEmpty && cs.all Char.isDigit

def numeral? (cs : List Char) : Option Nat :=
  if isNumeral cs then some (digitsValue cs) else none

/-- Reads `12`, `+12` and `-12`; leading zeros are allowed and blanks are not. -/
def integer? (s : String) : Option Int :=
  match s.toList with
  | '-' :: cs => (numeral? cs).map fun n => -(n : Int)
  | '+' :: cs => (numeral? cs).map Int.ofNat
  | cs => (numeral? cs).map Int.ofNat

end ChatCommands.Text
