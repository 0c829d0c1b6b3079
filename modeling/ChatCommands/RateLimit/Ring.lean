namespace ChatCommands

/-- Points in time, in milliseconds. Their range is that of 64-bit integers. -/
abbrev Instant := Int64

namespace Instant

def clamp (n : Int) : Instant :=
  if n < Int64.minValue.toInt then Int64.minValue
  else if Int64.maxValue.toInt < n then Int64.maxValue
  else Int64.ofInt n

/-- The instant `span` milliseconds earlier, or the first instant there is. -/
def earlier (t : Instant) (span : Nat) : Instant := clamp (t.toInt - span)

/-- The instant `span` milliseconds later, or the last instant there is. -/
def later (t : Instant) (span : Nat) : Instant := clamp (t.toInt + span)

/-- The milliseconds from `start` to `t`, none when `t` comes first. -/
def since (t start : Instant) : Nat := (clamp (t.toInt - start.toInt)).toInt.toNat

end Instant

/-- How many leading hits a bisection takes for older than `least`. It looks at `size` hits from
`base` on. -/
def bisect (least : Instant) (times : List Instant) (base size : Nat) : Nat :=
  if 1 < size then
    let half := size / 2
    let middle := base + half
    let start := if times.getD middle least < least then middle else base
    bisect least times start (size - half)
  else if size = 0 then base
  else if times.getD base least < least then base + 1
  else base
termination_by size
decreasing_by omega

/-- The times of a key's hits as they came, the first of them in the slot `start` of `slots`. -/
structure Ring where
  slots : Nat
  start : Nat
  times : List Instant
deriving DecidableEq

namespace Ring

def empty : Ring := ⟨0, 0, []⟩

/-- The hits that lie before the end of the slots, and those that went on from the first slot. -/
def runs (r : Ring) : List Instant × List Instant := r.times.splitAt (r.slots - r.start)

/-- How many leading hits are taken for older than `least`. -/
def stale (r : Ring) (least : Instant) : Nat :=
  let (front, back) := r.runs
  match back with
  | first :: _ =>
    if first < least then front.length + bisect least back 0 back.length
    else bisect least front 0 front.length
  | [] => bisect least front 0 front.length

/-- Drops the hits older than `least`. -/
def drop (r : Ring) (least : Instant) : Ring :=
  let n := r.stale least
  if n < r.times.length then ⟨r.slots, (r.start + n) % r.slots, r.times.drop n⟩
  else ⟨r.slots, 0, []⟩

/-- Doubles the slots. Hits that wrap around are joined again by moving the shorter of the two runs. -/
def grow (r : Ring) : Ring :=
  let slots := max 4 (2 * r.slots)
  let front := r.slots - r.start
  let back := r.times.length - front
  if back = 0 ∨ (back < front ∧ back ≤ slots - r.slots) then ⟨slots, r.start, r.times⟩
  else ⟨slots, slots - front, r.times⟩

/-- Adds a hit after all others. -/
def push (r : Ring) (t : Instant) : Ring :=
  let room := if r.times.length = r.slots then r.grow else r
  ⟨room.slots, room.start, room.times ++ [t]⟩

end Ring

end ChatCommands
