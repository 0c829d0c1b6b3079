import ChatCommands.Template.Value

namespace ChatCommands.Template

inductive Operator
  | or
  | and
  | equal
  | different
  | less
  | atMost
  | more
  | atLeast
  | within
  | notWithin
  | plus
  | minus
  | join
  | times
  | divided
  | dividedWhole
  | remainder
  | power
deriving DecidableEq

namespace Operator

open Value

def bounded (n : Int) : Option Value := if fits n then some (.whole n) else .none

/-- The power of a whole number. The exponent is looked at first, so that no number grows beyond need. -/
def powerOf (a b : Int) : Option Value :=
  if b < 0 ∨ 4294967296 ≤ b then .none
  else if a = 0 then some (.whole (if b = 0 then 1 else 0))
  else if a = 1 then some (.whole 1)
  else if a = -1 then some (.whole (if b % 2 = 0 then 1 else -1))
  else if 127 < b then .none
  else bounded (Int.pow a b.toNat)

/-- The remainder of doubles takes the sign of the dividend. -/
def remainderOf (x y : Float) : Float :=
  if x.isNaN || y.isNaN || x.isInf || y == 0.0 then 0.0 / 0.0
  else if y.isInf then x
  else
    let (m, e) := x.abs.frExp
    let (n, f) := y.abs.frExp
    let low := min e f
    let a := (m.scaleB 53).toUInt64.toNat * twoTo (e - low).toNat
    let b := (n.scaleB 53).toUInt64.toNat * twoTo (f - low).toNat
    let r := (Float.ofNat (a % b)).scaleB (low - 53)
    if x < 0.0 then -r else r

/-- The quotient of doubles without its fraction, such that the remainder is not negative. -/
def wholeQuotient (x y : Float) : Float :=
  let q := x / y
  let q := if q < 0.0 then q.ceil else q.floor
  if remainderOf x y < 0.0 then if 0.0 < y then q - 1.0 else q + 1.0 else q

def onNumbers (whole : Int → Int → Option Value) (double : Float → Float → Float) (a b : Value) :
    Option Value :=
  match Pair.of? a b with
  | some (.whole m n) => whole m n
  | some (.double x y) => some (.double (double x y))
  | _ => .none

/-- A text or a list said several times. -/
def repeated (v : Value) (times : Int) : Option Value :=
  if times < 0 then .none
  else
    match v with
    | .text s => some (.text (String.join (List.replicate times.toNat s)))
    | .list items => some (.list (List.replicate times.toNat items).flatten)
    | _ => .none

def product (a b : Value) : Option Value :=
  match a, b with
  | .text _, .whole n | .list _, .whole n => repeated a n
  | .whole n, .text _ | .whole n, .list _ => repeated b n
  | a, b => onNumbers (fun m n => bounded (m * n)) (· * ·) a b

def sum (a b : Value) : Option Value :=
  match a, b with
  | .text s, .text t => some (.text (s ++ t))
  | .list xs, .list ys => some (.list (xs ++ ys))
  | a, b => onNumbers (fun m n => bounded (m + n)) (· + ·) a b

/-- The value of an operator whose operands are both known. The first operand alone decides `or` and
`and`, which is seen to elsewhere; here they come down to the second. -/
def apply (op : Operator) (a b : Value) : Option Value :=
  let test (b : Bool) := some (Value.bool b)
  match op with
  | .or | .and => some b
  | .equal => test (a.same b)
  | .different => test (!a.same b)
  | .less => test (a.order b == .lt)
  | .atMost => test (a.order b != .gt)
  | .more => test (a.order b == .gt)
  | .atLeast => test (a.order b != .lt)
  | .within => (b.has a).map .bool
  | .notWithin => (b.has a).map fun found => .bool !found
  | .plus => sum a b
  | .minus => onNumbers (fun m n => bounded (m - n)) (· - ·) a b
  | .join => some (.text (a.shown ++ b.shown))
  | .times => product a b
  | .divided => do return .double ((← a.double?) / (← b.double?))
  | .dividedWhole => onNumbers (fun m n => if n = 0 then .none else bounded (m / n)) wholeQuotient a b
  | .remainder => onNumbers (fun m n => if n = 0 then .none else bounded (m % n)) remainderOf a b
  | .power => onNumbers powerOf Float.pow a b

/-- The number of opposite sign. -/
def negated (v : Value) : Option Value :=
  match v with
  | .double x => some (.double (-x))
  | .whole n => bounded (-n)
  | _ => .none

end Operator

end ChatCommands.Template
