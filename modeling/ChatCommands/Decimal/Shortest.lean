import ChatCommands.Decimal.Basic

namespace ChatCommands.Decimal

/-- A positive double as a fraction, with the ends of the interval of reals that round to it.
All three are over the denominator `scale`. -/
structure Interval where
  low : Nat
  value : Nat
  high : Nat
  scale : Nat
  /-- Whether the ends themselves round to the double. -/
  closed : Bool

/-- The interval of the positive double with these bits. Below a power of two the neighbours are
twice as close. -/
def Interval.ofBits (bits : Nat) : Interval :=
  let field := bits / twoTo 52 % 2048
  let fraction := bits % twoTo 52
  let m := if field = 0 then fraction else fraction + twoTo 52
  let q : Int := (if field = 0 then 1 else field : Nat) - 1077
  let below := if fraction = 0 ∧ 1 < field then 1 else 2
  let up := twoTo q.toNat
  ⟨(4 * m - below) * up, 4 * m * up, (4 * m + 2) * up, twoTo (-q).toNat, m % 2 = 0⟩

/-- Holds when the decimal lies in the interval. -/
def Interval.has (i : Interval) (d : Decimal) : Bool :=
  let point := d.coefficient * tenTo d.exponent.toNat * i.scale
  let unit := tenTo (-d.exponent).toNat
  if i.closed then i.low * unit ≤ point && point ≤ i.high * unit
  else i.low * unit < point && point < i.high * unit

/-- The point of the grid `10 ^ exponent` at or below the value. -/
def Interval.floor (i : Interval) (exponent : Int) : Nat :=
  i.value * tenTo (-exponent).toNat / (i.scale * tenTo exponent.toNat)

/-- Holds when the grid point after `coefficient` is at least as near as `coefficient` itself. -/
def Interval.nearerAbove (i : Interval) (coefficient : Nat) (exponent : Int) : Bool :=
  (2 * coefficient + 1) * (i.scale * tenTo exponent.toNat) ≤ 2 * i.value * tenTo (-exponent).toNat

/-- The point of one grid that reads back: the nearer of the two around the value, the upper one when
both are equally near. -/
def Interval.onGrid? (i : Interval) (exponent : Int) : Option Decimal :=
  let below := i.floor exponent
  let down : Decimal := ⟨below, exponent⟩
  let up : Decimal := ⟨below + 1, exponent⟩
  match i.has down, i.has up with
  | true, true => some (if i.nearerAbove below exponent then up else down)
  | true, false => some down
  | false, true => some up
  | false, false => none

/-- The least `n` at or above the start with `value < 10 ^ n`, looked for in `tries` steps. -/
def Interval.magnitude (i : Interval) : Nat → Int → Int
  | 0, n => n
  | tries + 1, n =>
    if i.value * tenTo (-n).toNat < i.scale * tenTo n.toNat then n else i.magnitude tries (n + 1)

/-- Tries ever finer grids, `tries` of them, beginning with `exponent`. -/
def Interval.search (i : Interval) : Nat → Int → Decimal
  | 0, exponent => ⟨i.floor exponent, exponent⟩
  | tries + 1, exponent =>
    match i.onGrid? exponent with
    | some d => d
    | none => i.search tries (exponent - 1)

/-- A last digit zero says nothing, so it moves into the exponent. -/
def strip (d : Decimal) : Decimal :=
  if d.coefficient % 10 = 0 then ⟨d.coefficient / 10, d.exponent + 1⟩ else d

/-- The decimal of fewest digits that reads back as the positive double with these bits. Seventeen
digits are always enough. -/
def shortest (bits : Nat) : Decimal :=
  let i := Interval.ofBits bits
  strip (i.search 17 (i.magnitude 700 (-340) - 1))

end ChatCommands.Decimal

namespace ChatCommands

/-- A double in plain digits: the fewest that read back, no exponent, and no point after a whole
number. -/
def Float.plain (x : Float) : String :=
  if x.isNaN then "NaN"
  else
    let sign := if x.toBits.toNat < twoTo 63 then "" else "-"
    let bits := x.toBits.toNat % twoTo 63
    if x.isInf then sign ++ "inf"
    else if bits = 0 then sign ++ "0"
    else sign ++ (Decimal.shortest bits).plain

end ChatCommands
