import ChatCommands.Session.World

namespace ChatCommands

/-- How far a conversation got in one turn. -/
inductive Turn (β : Type) where
  | ended (value : β)
  /-- It waits, until `due` at the latest. -/
  | waits (due : Nat) (rest : Conversation β)
  /-- It asked for a wait without an end that a clock can show. -/
  | crashed

/-- The messages to be deleted after some time. -/
abbrev PutOff := List (Message × Nat)

namespace Conversation

variable {β : Type}

/-- Goes on until the conversation ends or waits. -/
def advance : Conversation β → World → Turn β × PutOff × World
  | done value, w => (.ended value, [], w)
  | ask (.chat (.awaitReply channel accepts timeout)) next, w =>
    match w.meetFault "await_reply" with
    | (some e, w) => (next (.error e)).advance w
    | (none, w) =>
      match w.deadline? timeout with
      | none => (.crashed, [], w)
      | some due =>
        match w.perform (.awaitReply channel accepts timeout) with
        | (.ok none, w) =>
          if timeout = 0 then (next (.ok none)).advance w
          else (.waits due (ask (.chat (.awaitReply channel accepts timeout)) next), [], w)
        | (answer, w) => (next answer).advance w
  | ask (.chat (.awaitReaction message accepts timeout)) next, w =>
    match w.meetFault "await_reaction" with
    | (some e, w) => (next (.error e)).advance w
    | (none, w) =>
      match w.deadline? timeout with
      | none => (.crashed, [], w)
      | some due =>
        match w.perform (.awaitReaction message accepts timeout) with
        | (.ok none, w) =>
          if timeout = 0 then (next (.ok none)).advance w
          else (.waits due (ask (.chat (.awaitReaction message accepts timeout)) next), [], w)
        | (answer, w) => (next answer).advance w
  | ask (.pause 0) next, w => (next ()).advance w
  | ask (.pause (n + 1)) next, w => (.waits (w.now + n + 1) (ask (.pause (n + 1)) next), [], w)
  | ask (.chat call) next, w =>
    let (answer, w) := w.call call
    (next answer).advance w
  | ask (.charge limiter user now) next, w =>
    let (charge, w) := w.charge limiter user now
    (next charge).advance w
  | ask .clock next, w => (next w.clock).advance w
  | ask (.pick choices) next, w =>
    let (index, dice) := draw choices w.dice
    (next index).advance { w with dice }
  | ask (.deleteLater message delay) next, w =>
    let (turn, later, w) := (next ()).advance w
    (turn, (message, delay) :: later, w)
  | ask .requestShutdown next, w => (next ()).advance { w with shutdown := true }
  | ask (.note entry) next, w => (next ()).advance { w with journal := w.journal ++ [entry] }

/-- Goes on with a conversation that waited, when its wait may be over. -/
def resume (due : Nat) : Conversation β → World → Turn β × PutOff × World
  | ask (.chat (.awaitReply channel accepts timeout)) next, w =>
    match w.perform (.awaitReply channel accepts timeout) with
    | (.ok none, w) =>
      if due ≤ w.now then (next (.ok none)).advance w
      else (.waits due (ask (.chat (.awaitReply channel accepts timeout)) next), [], w)
    | (answer, w) => (next answer).advance w
  | ask (.chat (.awaitReaction message accepts timeout)) next, w =>
    match w.perform (.awaitReaction message accepts timeout) with
    | (.ok none, w) =>
      if due ≤ w.now then (next (.ok none)).advance w
      else (.waits due (ask (.chat (.awaitReaction message accepts timeout)) next), [], w)
    | (answer, w) => (next answer).advance w
  | ask (.pause n) next, w =>
    if due ≤ w.now then (next ()).advance w else (.waits due (ask (.pause n) next), [], w)
  | rest, w => rest.advance w

/-- Holds of a conversation that waits for a reply or a reaction. -/
def awaitsEvent : Conversation β → Bool
  | ask (.chat (.awaitReply _ _ _)) _ => true
  | ask (.chat (.awaitReaction _ _ _)) _ => true
  | _ => false

end Conversation

/-- What takes turns. `due?` is the end of the present wait; a task that never had a turn has none. -/
inductive Task (ρ : Type) where
  /-- The conversation whose outcome the session is after. -/
  | main (talk : Conversation ρ) (due? : Option Nat)
  | aside (talk : Conversation Unit) (due? : Option Nat)
  /-- Something that happens after a delay. -/
  | later (delay : Nat) (event : Happening) (due? : Option Nat)

namespace Task

variable {ρ : Type}

def due? : Task ρ → Option Nat
  | main _ due? => due?
  | aside _ due? => due?
  | later _ _ due? => due?

def isDue (t : Task ρ) (now : Nat) : Bool := t.due?.all (· ≤ now)

def awaitsEvent : Task ρ → Bool
  | main talk _ => talk.awaitsEvent
  | aside talk _ => talk.awaitsEvent
  | later _ _ _ => false

end Task

/-- A world, the tasks that can go on, those that wait, and the outcome of the main one. -/
structure Session (ρ : Type) where
  world : World
  ready : List (Task ρ) := []
  waiting : List (Task ρ) := []
  result? : Option ρ := none

namespace Session

variable {ρ : Type}

/-- Something happens. Whoever waits for an event looks again, those first who began to wait first. -/
def occur (s : Session ρ) (event : Happening) : Session ρ :=
  let s := { s with world := s.world.occur event }
  match event with
  | .pushReply _ | .pushReaction _ _ _ =>
    { s with
      ready := s.ready ++ s.waiting.filter (·.awaitsEvent)
      waiting := s.waiting.filter (!·.awaitsEvent) }
  | _ => s

/-- Puts the outcome of a turn into the session. `again` makes a task of a conversation that waits. -/
def settleTurn {β : Type} (s : Session ρ) (again : Conversation β → Nat → Task ρ) (ended : β → Option ρ)
    (turn : Turn β × PutOff × World) : Session ρ :=
  let (turn, putOff, world) := turn
  let s := { s with
    world
    ready := s.ready ++ putOff.map fun (message, delay) => Task.later delay (.delete message) none }
  match turn with
  | .ended value => { s with result? := ended value <|> s.result? }
  | .waits due rest => { s with waiting := s.waiting ++ [again rest due] }
  | .crashed => { s with world := { s.world with crashed := true } }

/-- Gives one task its turn. -/
def takeTurn (s : Session ρ) : Task ρ → Session ρ
  | .main talk due? =>
    s.settleTurn (fun rest due => .main rest (some due)) some
      (match due? with
      | none => talk.advance s.world
      | some due => talk.resume due s.world)
  | .aside talk due? =>
    s.settleTurn (fun rest due => .aside rest (some due)) (fun _ => none)
      (match due? with
      | none => talk.advance s.world
      | some due => talk.resume due s.world)
  | .later delay event due? =>
    let due := due?.getD (s.world.now + delay)
    if due ≤ s.world.now then s.occur event
    else { s with waiting := s.waiting ++ [.later delay event (some due)] }

/-- Moves time to the end of the first wait. Nothing waits when there is none. -/
def passTime? (s : Session ρ) : Option (Session ρ) := do
  let now ← (s.waiting.filterMap (·.due?)).min?
  return { s with
    world := { s.world with now := max now s.world.now }
    ready := s.ready ++ s.waiting.filter (·.isDue now)
    waiting := s.waiting.filter (!·.isDue now) }

/-- Gives turns until nothing can go on at the present time. At most `turns` are given. -/
def settle : (turns : Nat) → Session ρ → Session ρ
  | 0, s => s
  | turns + 1, s =>
    match s.ready with
    | [] => s
    | task :: rest => settle turns (takeTurn { s with ready := rest } task)

/-- Gives turns, and lets time pass, until the main conversation has ended and nothing else can go on
at that time. At most `turns` are given. -/
def run : (turns : Nat) → Session ρ → Session ρ
  | 0, s => s
  | turns + 1, s =>
    match s.ready with
    | task :: rest => run turns (takeTurn { s with ready := rest } task)
    | [] =>
      if s.result?.isSome || s.world.crashed then s
      else
        match s.passTime? with
        | none => s
        | some later => run turns later

/-- More turns than any session takes. -/
def turnLimit : Nat := 1000000000

/-- Holds a conversation to its end, and gives its outcome. There is none when it never ends. -/
def hold (s : Session ρ) (talk : Conversation ρ) : Option ρ × Session ρ :=
  let s := run turnLimit { s with ready := s.ready ++ [.main talk none], result? := none }
  (s.result?, { s with result? := none })

/-- Something happens, and whoever can go on does so. -/
def happen (s : Session ρ) (event : Happening) : Session ρ := settle turnLimit (s.occur event)

/-- Something will happen after a delay. -/
def happenLater (s : Session ρ) (delay : Nat) (event : Happening) : Session ρ :=
  settle turnLimit { s with ready := s.ready ++ [.later delay event none] }

end Session

end ChatCommands
