import Mathlib.Logic.Relation
import ChatCommands.Proofs.Waiting.Take

namespace ChatCommands.Waiting

/-- Where a waiter stands. Over and over, it asks to be notified, looks at the queue, and sleeps when the look
was in vain. `woken` tells of a notification since it asked. It ends with what it found, or with nothing. -/
inductive Stage where
  | begins
  | asked (woken : Bool)
  | asleep (woken : Bool)
  | ended (found? : Option Found)
deriving DecidableEq

/-- A notification reaches all who have asked for it. -/
def Stage.notify : Stage → Stage
  | asked _ => asked true
  | asleep _ => asleep true
  | stage => stage

/-- A waiter, with all that it has taken out of the queue. -/
structure Waiter where
  wait : Wait
  stage : Stage
  taken : List Event

/-- Somebody who has not begun to wait yet. -/
def Waiter.new (wait : Wait) : Waiter := ⟨wait, .begins, []⟩

def Waiter.notify (w : Waiter) : Waiter := { w with stage := w.stage.notify }

/-- What a waiter can do next. A sleeper goes on once it is notified, and can always come to its deadline. -/
inductive Waiter.Moves : Waiter → Memory → Waiter → Memory → Prop
  | asks {wait taken m} : Moves ⟨wait, .begins, taken⟩ m ⟨wait, .asked false, taken⟩ m
  | finds {wait woken taken m found after} : wait.take m = (some found, after) →
      Moves ⟨wait, .asked woken, taken⟩ m ⟨wait, .ended (some found), taken ++ wait.handed m⟩ after
  | sleeps {wait woken taken m after} : wait.take m = (none, after) →
      Moves ⟨wait, .asked woken, taken⟩ m ⟨wait, .asleep woken, taken ++ wait.handed m⟩ after
  | wakes {wait taken m} : Moves ⟨wait, .asleep true, taken⟩ m ⟨wait, .begins, taken⟩ m
  | expires {wait woken taken m} : Moves ⟨wait, .asleep woken, taken⟩ m ⟨wait, .ended none, taken⟩ m

/-- What comes in from outside. -/
inductive Push where
  | reply (message : Message)
  | reaction (target? : Option MessageId) (emoji : String) (user : UserId)

def Push.onto : Push → Memory → Memory
  | reply message, m => m.pushReply message
  | reaction target? emoji user, m => m.pushReaction target? emoji user

/-- What a push puts into the queue. -/
def Push.event : Push → Memory → Event
  | reply message, _ => .reply message
  | reaction target? emoji user, m => .reaction ⟨target?, emoji, user, m.bots.contains user⟩

/-- How far a pusher got. Between its push and its notification, others can do anything. -/
inductive Progress where
  | ready
  | pushed (event : Event)
  | notified (event : Event)
deriving DecidableEq

def Progress.event? : Progress → Option Event
  | ready => none
  | pushed event => some event
  | notified event => some event

structure Pusher where
  push : Push
  progress : Progress

def Pusher.new (push : Push) : Pusher := ⟨push, .ready⟩

/-- A platform, those who wait and those who push, and all events that were pushed, in that order. -/
structure State where
  memory : Memory
  waiters : List Waiter
  pushers : List Pusher
  log : List Event

/-- There may be something in the queue already, but nobody has begun to wait, or to push. -/
def State.start (m : Memory) : State := ⟨m, [], [], []⟩

/-- Somebody comes, or one of those who are there makes one move. Whatever else the platform is asked for
leaves the queues alone. -/
inductive Step : State → State → Prop
  | await {m waiters pushers log wait} :
      Step ⟨m, waiters, pushers, log⟩ ⟨m, waiters ++ [.new wait], pushers, log⟩
  | call {m waiters pushers log push} :
      Step ⟨m, waiters, pushers, log⟩ ⟨m, waiters, pushers ++ [.new push], log⟩
  | waiter {m after front back w w' pushers log} : Waiter.Moves w m w' after →
      Step ⟨m, front ++ w :: back, pushers, log⟩ ⟨after, front ++ w' :: back, pushers, log⟩
  | push {m waiters front back push log} :
      Step ⟨m, waiters, front ++ ⟨push, .ready⟩ :: back, log⟩
        ⟨push.onto m, waiters, front ++ ⟨push, .pushed (push.event m)⟩ :: back, log ++ [push.event m]⟩
  | notify {m waiters front back push event log} :
      Step ⟨m, waiters, front ++ ⟨push, .pushed event⟩ :: back, log⟩
        ⟨m, waiters.map Waiter.notify, front ++ ⟨push, .notified event⟩ :: back, log⟩
  | other {m after waiters pushers log} : after.replies = m.replies → after.queued = m.queued →
      Step ⟨m, waiters, pushers, log⟩ ⟨after, waiters, pushers, log⟩

/-- A waiter has taken what it yields, and before that only what its wait rejects. -/
inductive Waiter.Fair : Waiter → Prop
  | empty {w : Waiter} : (∀ found, w.stage ≠ .ended (some found)) → (∀ r ∈ w.taken, w.wait.Rejects r) → Fair w
  | yields {w : Waiter} {rejected e found} : w.stage = .ended (some found) → w.taken = rejected ++ [e] →
      (∀ r ∈ rejected, w.wait.Rejects r) → w.wait.Gets e found → Fair w

/-- What every step keeps. -/
structure Kept (origin : Memory) (s : State) : Prop where
  /-- Nothing is lost, and nothing is there twice. -/
  conserved : (origin.events ++ s.log).Perm (s.memory.events ++ s.waiters.flatMap (·.taken))
  /-- Every pusher has pushed once at the most, and no one else has. -/
  pushed : s.log.Perm (s.pushers.filterMap (·.progress.event?))
  /-- The queues are in the order in which the events came. -/
  ordered : (s.memory.replies.map .reply).Sublist (origin.events ++ s.log) ∧
    (s.memory.queued.map .reaction).Sublist (origin.events ++ s.log)
  fair : ∀ w ∈ s.waiters, w.Fair
  /-- Whoever sleeps on, with something in the queue to get, is yet to be notified by the one who pushed it. -/
  watched : ∀ w ∈ s.waiters, w.stage = .asleep false → ∀ e ∈ s.memory.events, ∀ found, w.wait.Gets e found →
    ∃ p ∈ s.pushers, p.progress = .pushed e

section

variable {origin m after : Memory} {s s' : State} {w w' : Waiter}

namespace Waiter

theorem Moves.conserves (move : w.Moves m w' after) :
    ∃ handed, w'.taken = w.taken ++ handed ∧ m.events.Perm (handed ++ after.events) := by
  cases move with
  | asks | wakes | expires => exact ⟨[], (List.append_nil _).symm, .refl _⟩
  | finds took | sleeps took => exact ⟨_, rfl, Wait.perm_of_take took⟩

theorem Moves.sublist (move : w.Moves m w' after) :
    after.replies.Sublist m.replies ∧ after.queued.Sublist m.queued := by
  cases move with
  | asks | wakes | expires => exact ⟨.refl _, .refl _⟩
  | finds took | sleeps took => exact Wait.sublist_of_take took

theorem Fair.rejects (fair : w.Fair) (unended : ∀ found, w.stage ≠ .ended (some found)) :
    ∀ r ∈ w.taken, w.wait.Rejects r := by
  cases fair with
  | empty _ rejected => exact rejected
  | yields ended => exact absurd ended (unended _)

theorem Moves.fair (move : w.Moves m w' after) (fair : w.Fair) : w'.Fair := by
  cases move with
  | asks => exact .empty (fun _ => nofun) (fair.rejects fun _ => nofun)
  | wakes => exact .empty (fun _ => nofun) (fair.rejects fun _ => nofun)
  | expires => exact .empty (fun _ => nofun) (fair.rejects fun _ => nofun)
  | sleeps took =>
    exact .empty (fun _ => nofun)
      (List.forall_mem_append.mpr ⟨fair.rejects fun _ => nofun, (Wait.rejected_of_take took).1⟩)
  | finds took =>
    obtain ⟨rejected, e, _, _, handed, each, _, _, gets⟩ := Wait.split_of_take took
    have before := List.forall_mem_append.mpr ⟨fair.rejects fun _ => nofun, each⟩
    exact .yields rfl (by rw [handed, List.append_assoc]) before gets

/-- Who goes to sleep, and has not been notified since the look, leaves nothing behind to get. -/
theorem Moves.asleep (move : w.Moves m w' after) (asleep : w'.stage = .asleep false) :
    ∀ e ∈ m.events, ∀ found, ¬ w'.wait.Gets e found := by
  cases move with
  | sleeps took => exact (Wait.rejected_of_take took).2
  | asks | finds | wakes | expires => cases asleep

theorem notify_asleep : w.notify.stage ≠ .asleep false := by
  obtain ⟨_, stage, _⟩ := w
  cases stage <;> exact nofun

theorem Fair.notify (fair : w.Fair) : w.notify.Fair := by
  obtain ⟨wait, stage, taken⟩ := w
  cases stage with
  | begins | ended => exact fair
  | asked | asleep => exact .empty (fun _ => nofun) (fair.rejects fun _ => nofun)

end Waiter

theorem Push.perm_events (push : Push) (m : Memory) : (push.onto m).events.Perm (m.events ++ [push.event m]) := by
  cases push with
  | reply message =>
    change ((m.replies ++ [message]).map _ ++ _).Perm _
    rw [List.map_append, List.append_assoc]
    exact (List.perm_append_comm.append_left _).trans (.of_eq (List.append_assoc ..).symm)
  | reaction target? emoji user =>
    change (_ ++ (m.queued ++ [_]).map _).Perm _
    rw [List.map_append, ← List.append_assoc]
    exact .refl _

theorem Push.ordered (push : Push) {log : List Event}
    (ordered : (m.replies.map .reply).Sublist log ∧ (m.queued.map .reaction).Sublist log) :
    ((push.onto m).replies.map .reply).Sublist (log ++ [push.event m]) ∧
      ((push.onto m).queued.map .reaction).Sublist (log ++ [push.event m]) := by
  have longer {entries : List Event} (within : entries.Sublist log) : entries.Sublist (log ++ [push.event m]) :=
    within.trans (List.sublist_append_left ..)
  cases push with
  | reply message =>
    refine ⟨?_, longer ordered.2⟩
    change ((m.replies ++ [message]).map _).Sublist _
    rw [List.map_append]
    exact ordered.1.append (.refl _)
  | reaction target? emoji user =>
    refine ⟨longer ordered.1, ?_⟩
    change ((m.queued ++ [_]).map _).Sublist _
    rw [List.map_append]
    exact ordered.2.append (.refl _)

section

variable {β : Type} {front back : List β} {a b x : β}

theorem forall_mem_of_replaced {P : β → Prop} (each : ∀ x ∈ front ++ a :: back, P x) (new : P b) :
    ∀ x ∈ front ++ b :: back, P x := by
  obtain ⟨first, rest⟩ := List.forall_mem_append.mp each
  exact List.forall_mem_append.mpr ⟨first, List.forall_mem_cons.mpr ⟨new, (List.forall_mem_cons.mp rest).2⟩⟩

theorem mem_of_replaced (member : x ∈ front ++ a :: back) (other : x ≠ a) : x ∈ front ++ b :: back := by
  rcases List.mem_append.mp member with first | rest
  · exact List.mem_append_left _ first
  · exact List.mem_append_right _ (List.mem_cons_of_mem _ (List.mem_of_ne_of_mem other rest))

end

theorem filterMap_split (front back : List Pusher) (p : Pusher) :
    (front ++ p :: back).filterMap (·.progress.event?) = front.filterMap (·.progress.event?) ++
      (p.progress.event?.toList ++ back.filterMap (·.progress.event?)) := by
  rw [List.filterMap_append, List.filterMap_cons]
  cases p.progress.event? <;> rfl

namespace Kept

section

variable {waiters : List Waiter} {pushers : List Pusher} {log : List Event}

theorem await (kept : Kept origin ⟨m, waiters, pushers, log⟩) (wait : Wait) :
    Kept origin ⟨m, waiters ++ [.new wait], pushers, log⟩ := by
  obtain ⟨conserved, pushed, ordered, fair, watched⟩ := kept
  have idle : (waiters ++ [Waiter.new wait]).flatMap Waiter.taken = waiters.flatMap Waiter.taken := by
    rw [List.flatMap_append, List.flatMap_singleton]
    exact List.append_nil _
  refine ⟨?_, pushed, ordered, ?_, ?_⟩
  · rw [idle]
    exact conserved
  · exact List.forall_mem_append.mpr
      ⟨fair, List.forall_mem_singleton.mpr (.empty (fun _ => nofun) (List.forall_mem_nil _))⟩
  · exact List.forall_mem_append.mpr ⟨watched, List.forall_mem_singleton.mpr nofun⟩

theorem call (kept : Kept origin ⟨m, waiters, pushers, log⟩) (push : Push) :
    Kept origin ⟨m, waiters, pushers ++ [.new push], log⟩ := by
  obtain ⟨conserved, pushed, ordered, fair, watched⟩ := kept
  refine ⟨conserved, ?_, ordered, fair, fun w member asleep e within found gets => ?_⟩
  · rw [List.filterMap_append]
    exact pushed.trans (.of_eq (List.append_nil _).symm)
  · obtain ⟨p, there, progress⟩ := watched w member asleep e within found gets
    exact ⟨p, List.mem_append_left _ there, progress⟩

/-- What a waiter takes out of the queue it has from then on, and the queue keeps its order. -/
theorem waiter {front back : List Waiter} (kept : Kept origin ⟨m, front ++ w :: back, pushers, log⟩)
    (move : w.Moves m w' after) : Kept origin ⟨after, front ++ w' :: back, pushers, log⟩ := by
  obtain ⟨conserved, pushed, ordered, fair, watched⟩ := kept
  obtain ⟨handed, taken, moved⟩ := move.conserves
  have less := move.sublist
  have there {e : Event} (member : e ∈ after.events) : e ∈ m.events :=
    moved.mem_iff.mpr (List.mem_append_right handed member)
  refine ⟨?_, pushed, ⟨(less.1.map _).trans ordered.1, (less.2.map _).trans ordered.2⟩, ?_, ?_⟩
  · rw [List.perm_iff_count] at conserved moved ⊢
    intro e
    have whole := conserved e
    have part := moved e
    simp only [List.flatMap_append, List.flatMap_cons, List.count_append, taken] at whole part ⊢
    omega
  · exact forall_mem_of_replaced fair (move.fair (fair w (by simp)))
  · refine forall_mem_of_replaced (a := w) (fun x member asleep e within => ?_)
      fun asleep e within found gets => ?_
    · exact watched x member asleep e (there within)
    · exact absurd gets (move.asleep asleep e (there within) found)

/-- Whoever sleeps on when an event is pushed is yet to be notified of it. -/
theorem push {front back : List Pusher} {push : Push}
    (kept : Kept origin ⟨m, waiters, front ++ ⟨push, .ready⟩ :: back, log⟩) :
    Kept origin ⟨push.onto m, waiters, front ++ ⟨push, .pushed (push.event m)⟩ :: back, log ++ [push.event m]⟩ := by
  obtain ⟨conserved, pushed, ordered, fair, watched⟩ := kept
  have more := push.perm_events m
  refine ⟨?_, ?_, ?_, fair, fun w member asleep e within found gets => ?_⟩
  · rw [List.perm_iff_count] at conserved more ⊢
    intro e
    have whole := conserved e
    have part := more e
    simp only [List.count_append] at whole part ⊢
    omega
  · rw [filterMap_split] at pushed ⊢
    have one := (pushed.append_right [push.event m]).trans (List.perm_append_singleton ..)
    exact one.trans List.perm_middle.symm
  · have longer := push.ordered ordered
    rwa [List.append_assoc] at longer
  · rcases List.mem_append.mp (more.mem_iff.mp within) with old | new
    · obtain ⟨p, there, progress⟩ := watched w member asleep e old found gets
      refine ⟨p, mem_of_replaced there ?_, progress⟩
      rintro rfl
      cases progress
    · rw [List.mem_singleton.mp new]
      exact ⟨_, List.mem_append_right _ (List.mem_cons_self ..), rfl⟩

/-- After a notification, nobody sleeps on. -/
theorem notify {front back : List Pusher} {push : Push} {event : Event}
    (kept : Kept origin ⟨m, waiters, front ++ ⟨push, .pushed event⟩ :: back, log⟩) :
    Kept origin ⟨m, waiters.map Waiter.notify, front ++ ⟨push, .notified event⟩ :: back, log⟩ := by
  obtain ⟨conserved, pushed, ordered, fair, _⟩ := kept
  have same : (waiters.map Waiter.notify).flatMap (·.taken) = waiters.flatMap (·.taken) := List.flatMap_map ..
  refine ⟨?_, ?_, ordered, fun w member => ?_, fun w member asleep => ?_⟩
  · rw [same]
    exact conserved
  · rw [filterMap_split] at pushed ⊢
    exact pushed
  · obtain ⟨before, there, rfl⟩ := List.mem_map.mp member
    exact (fair before there).notify
  · obtain ⟨before, _, rfl⟩ := List.mem_map.mp member
    exact absurd asleep before.notify_asleep

theorem other (kept : Kept origin ⟨m, waiters, pushers, log⟩) (replies : after.replies = m.replies)
    (queued : after.queued = m.queued) : Kept origin ⟨after, waiters, pushers, log⟩ := by
  obtain ⟨conserved, pushed, ordered, fair, watched⟩ := kept
  have same : after.events = m.events := by rw [Memory.events, replies, queued, Memory.events]
  refine ⟨?_, pushed, ?_, fair, ?_⟩
  · rw [same]
    exact conserved
  · rw [replies, queued]
    exact ordered
  · rw [same]
    exact watched

end

theorem step (kept : Kept origin s) (step : Step s s') : Kept origin s' := by
  cases step with
  | await => exact kept.await _
  | call => exact kept.call _
  | waiter move => exact kept.waiter move
  | push => exact kept.push
  | notify => exact kept.notify
  | other replies queued => exact kept.other replies queued

theorem start (m : Memory) : Kept m (.start m) := by
  refine ⟨.refl _, .refl _, ?_, List.forall_mem_nil _, List.forall_mem_nil _⟩
  rw [State.start, List.append_nil]
  exact ⟨List.sublist_append_left .., List.sublist_append_right ..⟩

theorem of_run (run : Relation.ReflTransGen Step (.start origin) s) : Kept origin s := by
  induction run with
  | refl => exact .start origin
  | tail _ step ih => exact ih.step step

end Kept

/-- How a waiter looks at the queue `m`: it finds the oldest event it can get, or sleeps as there is none. -/
inductive Waiter.Looks (w : Waiter) (m : Memory) (w' : Waiter) : Prop
  | found {front e back found} : m.events = front ++ e :: back → (∀ x ∈ front, ∀ f, ¬ w.wait.Gets x f) →
      w.wait.Gets e found → w'.stage = .ended (some found) → Looks w m w'
  | nothing {woken} : (∀ e ∈ m.events, ∀ f, ¬ w.wait.Gets e f) → w'.stage = .asleep woken → Looks w m w'

/-- How things stand after any run. -/
structure Orderly (origin : Memory) (s : State) : Prop extends Kept origin s where
  /-- When no two events are the same, each is in the queue and nobody has taken it, or else one waiter has. -/
  placed : (origin.events ++ s.log).Nodup → ∀ e ∈ origin.events ++ s.log,
    (e ∈ s.memory.events ∧ ∀ w ∈ s.waiters, e ∉ w.taken) ∨
    (e ∉ s.memory.events ∧ ∃ front w back, s.waiters = front ++ w :: back ∧ e ∈ w.taken ∧
      ∀ x ∈ front ++ back, e ∉ x.taken)
  /-- Whoever has taken a reply yields it. It came in the channel waited for, and was accepted. -/
  replies : ∀ w ∈ s.waiters, ∀ r, .reply r ∈ w.taken → ∃ channel accepts, w.wait = .reply channel accepts ∧
    r.channel = channel ∧ accepts r = true ∧ w.stage = .ended (some (.reply r)) ∧ w.taken = [.reply r]
  /-- Whoever has taken a reaction waited for it, and yields it unless it was not accepted. -/
  reactions : ∀ w ∈ s.waiters, ∀ q, .reaction q ∈ w.taken → ∃ message accepts, w.wait = .reaction message accepts ∧
    q.isFor message.id = true ∧ (accepts (q.seenOn message.id) = false ∨
      accepts (q.seenOn message.id) = true ∧ w.stage = .ended (some (.reaction (q.seenOn message.id))))
  looks : ∀ w ∈ s.waiters, ∀ woken, w.stage = .asked woken →
    (∃ w' after, w.Moves s.memory w' after) ∧ ∀ w' after, w.Moves s.memory w' after → w.Looks s.memory w'

namespace Waiter

theorem Moves.looks {woken : Bool} (move : w.Moves m w' after) (asked : w.stage = .asked woken) :
    w.Looks m w' := by
  cases move with
  | finds took =>
    obtain ⟨_, _, _, _, _, _, split, older, gets⟩ := Wait.split_of_take took
    exact .found split older gets rfl
  | sleeps took => exact .nothing (Wait.rejected_of_take took).2 rfl
  | asks | wakes | expires => cases asked

theorem exists_moves {woken : Bool} (asked : w.stage = .asked woken) (m : Memory) :
    ∃ w' after, w.Moves m w' after := by
  obtain ⟨wait, _, taken⟩ := w
  cases asked
  cases took : wait.take m with
  | mk found? after =>
    cases found? with
    | none => exact ⟨_, _, .sleeps took⟩
    | some found => exact ⟨_, _, .finds took⟩

theorem Fair.of_reply (fair : w.Fair) {r : Message} (member : .reply r ∈ w.taken) :
    ∃ channel accepts, w.wait = .reply channel accepts ∧ r.channel = channel ∧ accepts r = true ∧
      w.stage = .ended (some (.reply r)) ∧ w.taken = [.reply r] := by
  cases fair with
  | empty _ each =>
    obtain ⟨_, _, _, _, differs, _⟩ := (each _ member).exists_reaction
    cases differs
  | @yields rejected e found ended whole each gets =>
    rw [whole] at member
    rcases List.mem_append.mp member with before | last
    · obtain ⟨_, _, _, _, differs, _⟩ := (each _ before).exists_reaction
      cases differs
    · cases List.mem_singleton.mp last
      obtain ⟨channel, accepts, awaits, here, admits, rfl⟩ := gets.of_reply
      refine ⟨channel, accepts, awaits, here, admits, ended, ?_⟩
      cases rejected with
      | nil => exact whole
      | cons x rest =>
        obtain ⟨_, _, _, other, _⟩ := (each x (List.mem_cons_self ..)).exists_reaction
        cases awaits.symm.trans other

theorem Fair.of_reaction (fair : w.Fair) {q : QueuedReaction} (member : .reaction q ∈ w.taken) :
    ∃ message accepts, w.wait = .reaction message accepts ∧ q.isFor message.id = true ∧
      (accepts (q.seenOn message.id) = false ∨
        accepts (q.seenOn message.id) = true ∧ w.stage = .ended (some (.reaction (q.seenOn message.id)))) := by
  have of_rejected (rejects : w.wait.Rejects (.reaction q)) :
      ∃ message accepts, w.wait = .reaction message accepts ∧ q.isFor message.id = true ∧
        accepts (q.seenOn message.id) = false := by
    obtain ⟨message, accepts, _, awaits, same, mine, refused⟩ := rejects.exists_reaction
    cases same
    exact ⟨message, accepts, awaits, mine, refused⟩
  cases fair with
  | empty _ each =>
    obtain ⟨message, accepts, awaits, mine, refused⟩ := of_rejected (each _ member)
    exact ⟨message, accepts, awaits, mine, .inl refused⟩
  | yields ended whole each gets =>
    rw [whole] at member
    rcases List.mem_append.mp member with before | last
    · obtain ⟨message, accepts, awaits, mine, refused⟩ := of_rejected (each _ before)
      exact ⟨message, accepts, awaits, mine, .inl refused⟩
    · cases List.mem_singleton.mp last
      obtain ⟨message, accepts, awaits, mine, admits, rfl⟩ := gets.of_reaction
      exact ⟨message, accepts, awaits, mine, .inr ⟨admits, ended⟩⟩

end Waiter

theorem Kept.placed (kept : Kept origin s) (distinct : (origin.events ++ s.log).Nodup) {e : Event}
    (member : e ∈ origin.events ++ s.log) :
    (e ∈ s.memory.events ∧ ∀ w ∈ s.waiters, e ∉ w.taken) ∨
    (e ∉ s.memory.events ∧ ∃ front w back, s.waiters = front ++ w :: back ∧ e ∈ w.taken ∧
      ∀ x ∈ front ++ back, e ∉ x.taken) := by
  obtain ⟨_, separate, apart⟩ := List.nodup_append.mp (kept.conserved.nodup_iff.mp distinct)
  rcases List.mem_append.mp (kept.conserved.mem_iff.mp member) with here | gone
  · exact .inl ⟨here, fun w within taken => apart e here e (List.mem_flatMap.mpr ⟨w, within, taken⟩) rfl⟩
  · refine .inr ⟨fun here => apart e here e gone rfl, ?_⟩
    obtain ⟨w, within, taken⟩ := List.mem_flatMap.mp gone
    obtain ⟨front, back, split⟩ := List.append_of_mem within
    refine ⟨front, w, back, split, taken, fun x other also => ?_⟩
    rw [split, List.flatMap_append, List.flatMap_cons] at separate
    obtain ⟨_, rest, outside⟩ := List.nodup_append.mp separate
    obtain ⟨_, _, beyond⟩ := List.nodup_append.mp rest
    rcases List.mem_append.mp other with first | last
    · exact outside e (List.mem_flatMap.mpr ⟨x, first, also⟩) e (List.mem_append_left _ taken) rfl
    · exact beyond e taken e (List.mem_flatMap.mpr ⟨x, last, also⟩) rfl

theorem orderly_of_steps (run : Relation.ReflTransGen Step (.start origin) s) : Orderly origin s where
  toKept := .of_run run
  placed distinct _ member := (Kept.of_run run).placed distinct member
  replies w member _ taken := ((Kept.of_run run).fair w member).of_reply taken
  reactions w member _ taken := ((Kept.of_run run).fair w member).of_reaction taken
  looks _ _ _ asked := ⟨Waiter.exists_moves asked _, fun _ _ move => move.looks asked⟩

end

end ChatCommands.Waiting
