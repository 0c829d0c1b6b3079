import ChatCommands.RateLimit.Ring

namespace ChatCommands

/-- How many hits a key may have, and within what time. -/
structure Window where
  length : Nat
  budget : Nat
deriving DecidableEq

/-- The accepted hits of every key that has some. -/
abbrev HitLog := List (String × Ring)

/-- Whose hits are counted together: those of the command at a path, or those of all commands that have the
limit of a number. -/
inductive Keeper where
  | command (path : String)
  | shared (number : Nat)
deriving DecidableEq

/-- What counts hits, and how many of them it allows. -/
structure Limiter where
  keeper : Keeper
  window : Window
deriving DecidableEq

/-- What becomes of a hit. A refused one has to wait for so many milliseconds. -/
inductive Charge where
  | accepted
  | refused (wait : Nat)
deriving DecidableEq

namespace HitLog

/-- Drops the hits older than `least`, and the keys that have none left. -/
def prune (least : Instant) (log : HitLog) : HitLog :=
  (log.map fun (key, ring) => (key, ring.drop least)).filter fun (_, ring) => !ring.times.isEmpty

/-- Replaces the hits of `key`; a new key comes last. -/
def put (key : String) (ring : Ring) : HitLog → HitLog
  | [] => [(key, ring)]
  | entry :: rest => if entry.1 = key then (key, ring) :: rest else entry :: put key ring rest

end HitLog

namespace Window

/-- Records a hit when the key has fewer than `budget` of them left in the window. -/
def hit (w : Window) (key : String) (now : Instant) (log : HitLog) : Bool × HitLog :=
  let kept := log.prune (now.earlier w.length)
  let ring := (kept.lookup key).getD .empty
  if w.budget ≤ ring.times.length then (false, kept)
  else (true, kept.put key (ring.push now))

/-- The milliseconds until the first hit of a key that is over budget leaves the window. -/
def remaining (w : Window) (key : String) (now : Instant) (log : HitLog) : Nat × HitLog :=
  let kept := log.prune (now.earlier w.length)
  match kept.lookup key with
  | none => (0, kept)
  | some ring =>
    match ring.times with
    | [] => (0, kept)
    | oldest :: _ =>
      if ring.times.length < w.budget then (0, kept)
      else ((oldest.later w.length).since now, kept)

/-- A hit, and when it is refused the time to wait. -/
def charge (w : Window) (key : String) (now : Instant) (log : HitLog) : Charge × HitLog :=
  match w.hit key now log with
  | (true, after) => (.accepted, after)
  | (false, after) =>
    let (wait, left) := w.remaining key now after
    (.refused wait, left)

end Window

end ChatCommands
