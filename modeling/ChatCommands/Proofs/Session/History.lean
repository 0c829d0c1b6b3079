import ChatCommands.Proofs.Serving.Loop
import ChatCommands.Proofs.Session.Steps
import ChatCommands.Session.Serve

namespace ChatCommands

open Serving

namespace World

/-- The answer that a world gives to a request, and the world after it. A wait that goes on meets no more faults. -/
inductive Answers (w : World) : (request : Request) → request.Answer → World → Prop
  | fails {call e after} : w.meetFault call.name = (some e, after) → Answers w (.chat call) (.error e) after
  | performs {call answer between after} : w.meetFault call.name = (none, between) →
      between.perform call = (answer, after) → Answers w (.chat call) answer after
  | looksAgain {call answer after} : call.timeout?.isSome = true → w.perform call = (answer, after) →
      Answers w (.chat call) answer after
  | charge {limiter user now charge after} : w.charge limiter user now = (charge, after) →
      Answers w (.charge limiter user now) charge after
  | clock : Answers w .clock w.clock w
  | pick {choices index dice} : draw choices w.dice = (index, dice) → Answers w (.pick choices) index { w with dice }
  | pause {n} : Answers w (.pause n) () w
  | deleteLater {message delay} : Answers w (.deleteLater message delay) () w
  | requestShutdown : Answers w .requestShutdown () { w with shutdown := true }
  | note {entry} : Answers w (.note entry) () { w with journal := w.journal ++ [entry] }

/-- Exchanges in which the world gives all the answers, one after another. -/
inductive Exchanges : World → List Exchange → World → Prop
  | nil {w} : Exchanges w [] w
  | cons {w request answer between log after} : w.Answers request answer between → Exchanges between log after →
      Exchanges w (⟨request, answer⟩ :: log) after

variable {w after : World} {call : ChatCall}

/-- A shutdown has been asked for only as told, and what has crashed stays so. -/
structure Signals (w after : World) (asked : Bool) : Prop where
  shutdown : after.shutdown = (w.shutdown || asked)
  crashed : w.crashed = true → after.crashed = true

theorem Signals.same (shutdown : after.shutdown = w.shutdown) (crashed : after.crashed = w.crashed) :
    w.Signals after false :=
  ⟨by rw [shutdown, Bool.or_false], fun before => crashed.trans before⟩

theorem Signals.refl (w : World) : w.Signals w false := .same rfl rfl

theorem Signals.trans {last : World} {first later : Bool} (signals : w.Signals after first)
    (more : after.Signals last later) : w.Signals last (first || later) :=
  ⟨by rw [more.shutdown, signals.shutdown, Bool.or_assoc], fun before => more.crashed (signals.crashed before)⟩

theorem signals_of_fault {name : String} {fault? : Option ChatError} (met : w.meetFault name = (fault?, after)) :
    w.Signals after false := by
  unfold meetFault at met
  split at met <;> cases met <;> exact .same rfl rfl

theorem signals_of_perform {answer : Except ChatError call.Value} (run : w.perform call = (answer, after)) :
    w.Signals after false := by
  cases call <;> cases run <;> exact .same rfl rfl

theorem Answers.signals {request : Request} {answer : request.Answer} (answers : w.Answers request answer after) :
    w.Signals after (asksToStop request) := by
  cases answers with
  | fails faulted => exact signals_of_fault faulted
  | performs faulted look => exact (signals_of_fault faulted).trans (signals_of_perform look)
  | looksAgain _ look => exact signals_of_perform look
  | charge charged =>
    cases charged
    exact .same rfl rfl
  | requestShutdown => exact ⟨(Bool.or_true _).symm, id⟩
  | _ => exact .same rfl rfl

theorem Looks.signals {due? : Option Nat} {due : Nat} {answer : Except ChatError call.Value}
    (looks : w.Looks call due? due answer after) : w.Signals after false := by
  cases looks with
  | first look _ passed => exact (signals_of_fault passed).trans (signals_of_perform look)
  | again look => exact signals_of_perform look

theorem Meets.answers {due? : Option Nat} {request : Request} {answer : request.Answer}
    (meets : w.Meets due? request answer after) : w.Answers request answer after := by
  cases meets with
  | fails faulted => exact .fails faulted
  | performs _ passed look => exact .performs passed look
  | looks looks =>
    cases looks with
    | first look _ passed => exact .performs passed look
    | again look waits => exact .looksAgain waits look
  | paused => exact .pause
  | charge => exact .charge rfl
  | clock => exact .clock
  | pick => exact .pick rfl
  | deleteLater => exact .deleteLater
  | requestShutdown => exact .requestShutdown
  | note => exact .note

theorem Exchanges.signals {log : List Exchange} (exchanges : w.Exchanges log after) :
    w.Signals after (log.any fun e => asksToStop e.request) := by
  induction exchanges with
  | nil => exact .refl _
  | cons answers _ ih => exact answers.signals.trans ih

end World

variable {β ρ : Type}

/-- Where a turn leaves a conversation. A crash leaves it anywhere. -/
def Turn.Leaves (turn : Turn β) (rest : Conversation β) : Prop :=
  match turn with
  | .ended value => rest = .done value
  | .waits _ left => rest = left
  | .crashed => True

namespace Conversation

/-- A turn that begins in `w`: what is exchanged in it, the world giving the answers, and what it leaves of the
conversation. A look in vain may come last, which is no exchange yet. -/
structure Takes (c : Conversation β) (w : World) (turn : Turn β × PutOff × World) (log : List Exchange)
    (rest : Conversation β) : Prop where
  comes : c.Comes log rest
  leaves : turn.1.Leaves rest
  answered : ∃ between, w.Exchanges log between ∧ between.Signals turn.2.2 false

variable {c : Conversation β} {w after : World} {took : Turn β × PutOff × World}

theorem Takes.signals {log : List Exchange} {rest : Conversation β} (takes : c.Takes w took log rest) :
    w.Signals took.2.2 (log.any fun e => asksToStop e.request) := by
  obtain ⟨between, exchanges, looks⟩ := takes.answered
  have signals := exchanges.signals.trans looks
  rwa [Bool.or_false] at signals

theorem takes_nothing {stop : Turn β} {putOff : PutOff} (leaves : stop.Leaves c) (looks : w.Signals after false) :
    ∃ log rest, c.Takes w (stop, putOff, after) log rest :=
  ⟨[], c, .start, leaves, w, .nil, looks⟩

theorem takes_ask {request : Request} {next : request.Answer → Conversation β} {answer : request.Answer}
    (answers : w.Answers request answer after) (later : ∃ log rest, (next answer).Takes after took log rest) :
    ∃ log rest, (ask request next).Takes w took log rest := by
  obtain ⟨log, rest, comes, leaves, between, exchanges, looks⟩ := later
  exact ⟨_, rest, .ask comes, leaves, between, .cons answers exchanges, looks⟩

theorem Advances.takes {due? : Option Nat} (advances : c.Advances due? w took) :
    ∃ log rest, c.Takes w took log rest := by
  induction advances with
  | done => exact takes_nothing rfl (.refl _)
  | ask meets _ ih =>
    obtain ⟨log, rest, comes, leaves, answered⟩ := ih
    exact takes_ask meets.answers ⟨log, rest, comes, leaves, answered⟩
  | sleeps looks => exact takes_nothing rfl looks.signals
  | pauses => exact takes_nothing rfl (.refl _)
  | crashed _ passed => exact takes_nothing trivial (World.signals_of_fault passed)
  | busy _ _ ih => exact ih

theorem exists_takes (c : Conversation β) (due? : Option Nat) (w : World) :
    ∃ log rest, c.Takes w (c.turn due? w) log rest := advances_turn.takes

end Conversation

/-- The conversation of a task that a message began. -/
def Task.aside? : Task ρ → Option (Conversation Unit)
  | aside talk _ => some talk
  | _ => none

namespace Session

def asides (s : Session ρ) : List (Conversation Unit) := (s.ready ++ s.waiting).filterMap Task.aside?

/-- Whatever is done in a session, one thing at a time, that has nothing to do with messages which were delivered. -/
inductive Move : Session ρ → Session ρ → Prop
  | turn {s task rest} : s.ready = task :: rest → task.aside? = none → Move s (takeTurn { s with ready := rest } task)
  | pass {s after} : s.passTime? = some after → Move s after
  | occur {s} (event : Happening) : Move s (s.occur event)
  | begin {s task} : task.aside? = none → task.due? = none → Move s { s with ready := s.ready ++ [task] }
  | forget {s} : Move s { s with result? := none }
  | setClock {s} (clock : Instant) : Move s { s with world := { s.world with clock } }

/-- The sessions that come of a world, with the tasks of all messages that were delivered. What a task has exchanged was
exchanged in its turns, in which the world gave the answers. -/
inductive Traced (attend : Message → Conversation Unit) (origin : Memory) : List Handler → Session ρ → Prop
  | start {w : World} : w.memory = origin → Traced attend origin [] { world := w }
  | deliver {handlers} {s : Session ρ} (message : Message) : Traced attend origin handlers s → s.isServing = true →
      Traced attend origin (handlers ++ [⟨message, [], attend message⟩])
        { s with ready := s.ready ++ [.aside (attend message) none] }
  | turn {before h behind} {s : Session ρ} {due? rest log left} : Traced attend origin (before ++ h :: behind) s →
      s.ready = .aside h.rest due? :: rest → h.rest.Takes s.world (h.rest.turn due? s.world) log left →
      Traced attend origin (before ++ ⟨h.message, h.past ++ log, left⟩ :: behind)
        (takeTurn { s with ready := rest } (.aside h.rest due?))
  | move {handlers} {s after : Session ρ} : Traced attend origin handlers s → s.Move after →
      Traced attend origin handlers after

section

variable {s : Session ρ} {task : Task ρ} {rest : List (Task ρ)}

theorem asides_called (s : Session ρ) (p : Task ρ → Bool) :
    s.asides.Perm ((s.ready ++ s.waiting.filter p ++ s.waiting.filter (!p ·)).filterMap Task.aside?) := by
  rw [List.append_assoc]
  exact ((List.filter_append_perm ..).symm.append_left _).filterMap _

/-- Of the tasks that messages began, a turn changes at most the one whose turn it is. -/
theorem asides_settleTurn {again : Conversation β → Nat → Task ρ} {ended : β → Option ρ} {turn : Turn β}
    {putOff : PutOff} {w : World} :
    ({ s with ready := rest }.settleTurn again ended (turn, putOff, w)).asides =
      (rest ++ s.waiting).filterMap Task.aside? ++
        match turn with
        | .waits due left => (again left due).aside?.toList
        | _ => [] := by
  have nothing : (putOff.tasks : List (Task ρ)).filterMap Task.aside? = [] :=
    putOff.filterMap_tasks fun _ _ _ => rfl
  rw [PutOff.tasks] at nothing
  cases turn with
  | ended | crashed =>
    simp only [asides, Session.settleTurn, List.filterMap_append, nothing, List.append_nil]
  | waits due left =>
    have last : [again left due].filterMap Task.aside? = (again left due).aside?.toList := by
      rw [List.filterMap_cons]
      cases (again left due).aside? <;> rfl
    simp only [asides, Session.settleTurn, List.filterMap_append, nothing, last, List.nil_append, List.append_assoc]

theorem takeTurn_main (talk : Conversation ρ) (due? : Option Nat) (s : Session ρ) :
    s.takeTurn (.main talk due?) =
      s.settleTurn (fun left due => .main left (some due)) some (talk.turn due? s.world) := rfl

theorem takeTurn_aside (talk : Conversation Unit) (due? : Option Nat) (s : Session ρ) :
    s.takeTurn (.aside talk due?) =
      s.settleTurn (fun left due => .aside left (some due)) (fun _ => none) (talk.turn due? s.world) := rfl

/-- The world after a turn is the one that the turn leaves, unless it crashed. -/
theorem signals_settleTurn {again : Conversation β → Nat → Task ρ} {ended : β → Option ρ}
    {turn : Turn β × PutOff × World} {asked : Bool} (signals : s.world.Signals turn.2.2 asked) :
    s.world.Signals ({ s with ready := rest }.settleTurn again ended turn).world asked := by
  obtain ⟨turn, putOff, w⟩ := turn
  cases turn with
  | ended | waits => exact signals
  | crashed => exact ⟨signals.shutdown, fun _ => rfl⟩

theorem asides_of_ready (ready : s.ready = task :: rest) :
    s.asides = task.aside?.toList ++ (rest ++ s.waiting).filterMap Task.aside? := by
  rw [asides, ready, List.cons_append, List.filterMap_cons]
  cases task.aside? <;> rfl

end

/-- The tasks that messages began are left alone, and a shutdown may have been asked for. -/
structure Spares (s after : Session ρ) : Prop where
  signals : ∃ asked, s.world.Signals after.world asked
  asides : s.asides.Perm after.asides

namespace Spares

variable {s after last : Session ρ} {task : Task ρ} {rest : List (Task ρ)}

theorem trans (first : s.Spares after) (later : after.Spares last) : s.Spares last := by
  obtain ⟨_, signals⟩ := first.signals
  obtain ⟨_, more⟩ := later.signals
  exact ⟨⟨_, signals.trans more⟩, first.asides.trans later.asides⟩

theorem occur (s : Session ρ) (event : Happening) : s.Spares (s.occur event) := by
  cases event with
  | pushReply | pushReaction => exact ⟨⟨false, .same rfl rfl⟩, asides_called s _⟩
  | delete => exact ⟨⟨false, (World.meets_call rfl).answers.signals⟩, .refl _⟩
  | _ => exact ⟨⟨false, .same rfl rfl⟩, .refl _⟩

theorem begin (apart : task.aside? = none) : s.Spares { s with ready := s.ready ++ [task] } := by
  refine ⟨⟨false, .refl _⟩, .of_eq ?_⟩
  simp only [Session.asides, List.filterMap_append, List.filterMap_cons_none apart, List.filterMap_nil, List.append_nil]

theorem drop (ready : s.ready = task :: rest) (apart : task.aside? = none) :
    s.Spares { s with ready := rest } := by
  refine ⟨⟨false, .refl _⟩, .of_eq ?_⟩
  rw [asides_of_ready ready, apart]
  rfl

theorem wait (ready : s.ready = task :: rest) {left : Task ρ} (apart : task.aside? = none)
    (apart' : left.aside? = none) : s.Spares { s with ready := rest, waiting := s.waiting ++ [left] } := by
  refine ⟨⟨false, .refl _⟩, .of_eq ?_⟩
  rw [asides_of_ready ready, apart, Session.asides]
  simp only [List.filterMap_append, List.filterMap_cons_none apart', List.filterMap_nil, List.append_nil,
    Option.toList_none, List.nil_append]

theorem takeTurn (ready : s.ready = task :: rest) (apart : task.aside? = none) :
    s.Spares (Session.takeTurn { s with ready := rest } task) := by
  cases task with
  | main talk due? =>
    obtain ⟨log, left, takes⟩ := talk.exists_takes due? s.world
    rw [takeTurn_main]
    refine ⟨⟨_, signals_settleTurn takes.signals⟩, .of_eq ?_⟩
    rw [asides_of_ready ready]
    obtain ⟨turn, putOff, w⟩ := talk.turn due? s.world
    rw [asides_settleTurn]
    cases turn <;> simp [Task.aside?]
  | aside => cases apart
  | later delay event due? =>
    rw [Session.takeTurn]
    split
    · exact (drop ready rfl).trans (occur _ event)
    · exact wait ready rfl rfl

end Spares

theorem Move.spares {s after : Session ρ} (move : s.Move after) : s.Spares after := by
  cases move with
  | turn ready apart => exact .takeTurn ready apart
  | pass passes =>
    obtain ⟨now, _, same⟩ := Option.bind_eq_some_iff.mp passes
    cases same
    exact ⟨⟨false, .same rfl rfl⟩, asides_called s _⟩
  | occur event => exact .occur s event
  | begin apart => exact .begin apart
  | forget => exact ⟨⟨false, .refl _⟩, .refl _⟩
  | setClock => exact ⟨⟨false, .same rfl rfl⟩, .refl _⟩

/-- These are the conversations of the tasks that messages began, with those that are done, or crashed. -/
def Accounts (s : Session ρ) (talks : List (Conversation Unit)) : Prop :=
  ∃ gone, talks.Perm (s.asides ++ gone) ∧ ∀ c ∈ gone, c = pure () ∨ s.world.crashed = true

namespace Accounts

variable {s after : Session ρ} {rest : List (Task ρ)} {talks before behind : List (Conversation Unit)}
  {talk left : Conversation Unit}

theorem deliver (accounts : s.Accounts talks) (talk : Conversation Unit) :
    Accounts { s with ready := s.ready ++ [.aside talk none] } (talks ++ [talk]) := by
  obtain ⟨gone, tasks, finished⟩ := accounts
  refine ⟨gone, ?_, finished⟩
  have more : Session.asides { s with ready := s.ready ++ [.aside talk none] } =
      s.ready.filterMap Task.aside? ++ talk :: s.waiting.filterMap Task.aside? := by
    simp [Session.asides, Task.aside?]
  rw [Session.asides, List.filterMap_append, List.append_assoc] at tasks
  rw [more, List.append_assoc, List.cons_append]
  exact ((List.perm_append_singleton _ _).trans (tasks.cons _)).trans List.perm_middle.symm

theorem turn {due? : Option Nat} {log : List Exchange} (accounts : s.Accounts (before ++ talk :: behind))
    (ready : s.ready = .aside talk due? :: rest) (takes : talk.Takes s.world (talk.turn due? s.world) log left) :
    Accounts (takeTurn { s with ready := rest } (.aside talk due?)) (before ++ left :: behind) := by
  obtain ⟨gone, tasks, finished⟩ := accounts
  rw [asides_of_ready ready] at tasks
  have others : (before ++ behind).Perm ((rest ++ s.waiting).filterMap Task.aside? ++ gone) :=
    (List.perm_middle.symm.trans tasks).cons_inv
  have moved : (before ++ left :: behind).Perm (left :: ((rest ++ s.waiting).filterMap Task.aside? ++ gone)) :=
    List.perm_middle.trans (others.cons left)
  have signals : s.world.Signals (takeTurn { s with ready := rest } (.aside talk due?)).world _ :=
    signals_settleTurn takes.signals
  have finished' : ∀ c ∈ gone, c = pure () ∨ _ := fun c member => (finished c member).imp_right signals.crashed
  have leaves := takes.leaves
  rw [takeTurn_aside] at finished' ⊢
  generalize talk.turn due? s.world = took at leaves finished' ⊢
  obtain ⟨turn, putOff, w⟩ := took
  rw [Accounts, asides_settleTurn]
  cases turn with
  | ended value =>
    refine ⟨left :: gone, moved.trans ?_, List.forall_mem_cons.mpr ⟨.inl leaves, finished'⟩⟩
    rw [List.append_nil]
    exact List.perm_middle.symm
  | waits due place =>
    cases leaves
    refine ⟨gone, moved.trans ?_, finished'⟩
    rw [List.append_assoc]
    exact List.perm_middle.symm
  | crashed =>
    refine ⟨left :: gone, moved.trans ?_, List.forall_mem_cons.mpr ⟨.inr rfl, finished'⟩⟩
    rw [List.append_nil]
    exact List.perm_middle.symm

theorem spared (accounts : s.Accounts talks) (spares : s.Spares after) : after.Accounts talks := by
  obtain ⟨gone, tasks, finished⟩ := accounts
  obtain ⟨⟨_, signals⟩, same⟩ := spares
  exact ⟨gone, tasks.trans (same.append_right gone), fun c member => (finished c member).imp_right signals.crashed⟩

end Accounts

/-- The tasks of a session are those that messages began, but for those that are done or crashed. -/
theorem Traced.asides {attend : Message → Conversation Unit} {origin : Memory} {handlers : List Handler} {s : Session ρ}
    (traced : s.Traced attend origin handlers) : s.Accounts (handlers.map (·.rest)) := by
  induction traced with
  | start => exact ⟨[], .nil, nofun⟩
  | deliver message _ _ ih =>
    rw [List.map_append]
    exact ih.deliver _
  | turn _ ready takes ih =>
    rw [List.map_append, List.map_cons] at ih ⊢
    exact ih.turn ready takes
  | move _ move ih => exact ih.spared move.spares

theorem shutdown_of_isServing {s : Session ρ} (going : s.isServing = true) : s.world.shutdown = false := by
  unfold isServing Inbox.turn at going
  cases shutdown : s.world.shutdown with
  | false => rfl
  | true =>
    rw [shutdown] at going
    cases going

/-- While no shutdown has been asked for, the loop takes a message and waits for the next. -/
theorem takeAll_single {attend : Message → Conversation Unit} {s : Session ρ} {message : Message}
    (going : s.world.shutdown = false) :
    s.takeAll attend { queue := [message] } = { s with ready := s.ready ++ [.aside (attend message) none] } := by
  rw [Session.takeAll]
  split
  · rename_i taken
    rw [going] at taken
    cases taken
    rw [Session.takeAll]
    split
    · rename_i taken
      cases Inbox.queue_of_turn_takes taken
    · rfl
    · rfl
  · rename_i waits
    rw [going] at waits
    cases waits
  · rename_i ends
    rw [going] at ends
    cases ends

/-- The sessions that come of a world, whatever is done and whatever happens in them, with the messages that were
delivered: those that the inbox accepted. -/
inductive Reached (attend : Message → Conversation Unit) (origin : Memory) : List Message → Session ρ → Prop
  | start {w : World} : w.memory = origin → Reached attend origin [] { world := w }
  | hold {sent} {s : Session ρ} (talk : Conversation ρ) : Reached attend origin sent s →
      Reached attend origin sent (s.hold talk).2
  | happen {sent} {s : Session ρ} (event : Happening) : Reached attend origin sent s →
      Reached attend origin sent (s.happen event)
  | happenLater {sent} {s : Session ρ} (delay : Nat) (event : Happening) : Reached attend origin sent s →
      Reached attend origin sent (s.happenLater delay event)
  | deliver {sent} {s : Session ρ} (message : Message) : Reached attend origin sent s →
      Reached attend origin (if (s.deliver attend message).1 then sent ++ [message] else sent)
        (s.deliver attend message).2
  | setClock {sent} {s : Session ρ} (clock : Instant) : Reached attend origin sent s →
      Reached attend origin sent { s with world := { s.world with clock } }

/-- One thing after another has been done, in which just these messages were delivered. -/
def Follows (attend : Message → Conversation Unit) (origin : Memory) (sent : List Message) (s : Session ρ) : Prop :=
  ∃ handlers, s.Traced attend origin handlers ∧ handlers.map (·.message) = sent

namespace Follows

variable {attend : Message → Conversation Unit} {origin : Memory} {sent : List Message} {s after : Session ρ}
variable {task : Task ρ} {rest : List (Task ρ)}

theorem move (follows : s.Follows attend origin sent) (move : s.Move after) : after.Follows attend origin sent := by
  obtain ⟨handlers, traced, same⟩ := follows
  exact ⟨handlers, traced.move move, same⟩

theorem takeTurn (follows : s.Follows attend origin sent) (ready : s.ready = task :: rest) :
    (Session.takeTurn { s with ready := rest } task).Follows attend origin sent := by
  cases task with
  | main | later => exact follows.move (.turn ready rfl)
  | aside c due? =>
    obtain ⟨handlers, traced, same⟩ := follows
    obtain ⟨gone, tasks, _⟩ := traced.asides
    rw [asides_of_ready ready] at tasks
    obtain ⟨h, member, rfl⟩ := List.mem_map.mp (tasks.mem_iff.mpr (List.mem_cons_self ..))
    obtain ⟨before, behind, rfl⟩ := List.append_of_mem member
    obtain ⟨log, left, takes⟩ := h.rest.exists_takes due? s.world
    refine ⟨_, traced.turn ready takes, ?_⟩
    rw [← same, List.map_append, List.map_append]
    rfl

theorem settle (follows : s.Follows attend origin sent) (turns : Nat) :
    (Session.settle turns s).Follows attend origin sent := by
  induction turns generalizing s with
  | zero => exact follows
  | succ turns ih =>
    rw [Session.settle]
    split
    · exact follows
    · rename_i ready
      exact ih (follows.takeTurn ready)

theorem run (follows : s.Follows attend origin sent) (turns : Nat) :
    (Session.run turns s).Follows attend origin sent := by
  induction turns generalizing s with
  | zero => exact follows
  | succ turns ih =>
    rw [Session.run]
    split
    · rename_i ready
      exact ih (follows.takeTurn ready)
    · split
      · exact follows
      · split
        · exact follows
        · rename_i passes
          exact ih (follows.move (.pass passes))

theorem hold (follows : s.Follows attend origin sent) (talk : Conversation ρ) :
    (s.hold talk).2.Follows attend origin sent := by
  have begun : Follows attend origin sent { s with ready := s.ready ++ [.main talk none], result? := none } :=
    (follows.move .forget).move (.begin rfl rfl)
  exact (begun.run turnLimit).move .forget

/-- A message that the inbox accepts is taken by the loop, which begins its task. -/
theorem deliver (follows : s.Follows attend origin sent) (message : Message) :
    (s.deliver attend message).2.Follows attend origin
      (if (s.deliver attend message).1 then sent ++ [message] else sent) := by
  rw [Session.deliver]
  split
  · rename_i going
    obtain ⟨handlers, traced, rfl⟩ := follows
    rw [takeAll_single (shutdown_of_isServing going)]
    have begun : Follows attend origin (handlers.map (·.message) ++ [message])
        { s with ready := s.ready ++ [.aside (attend message) none] } :=
      ⟨_, traced.deliver message going, List.map_append ..⟩
    exact begun.settle turnLimit
  · exact follows

end Follows

/-- Whatever is done in a session comes down to one thing after another. -/
theorem Reached.follows {attend : Message → Conversation Unit} {origin : Memory} {sent : List Message} {s : Session ρ}
    (reached : s.Reached attend origin sent) : s.Follows attend origin sent := by
  induction reached with
  | start same => exact ⟨[], .start same, rfl⟩
  | hold talk _ ih => exact ih.hold talk
  | happen event _ ih => exact (ih.move (.occur event)).settle turnLimit
  | happenLater delay event _ ih => exact (ih.move (.begin rfl rfl)).settle turnLimit
  | deliver message _ ih => exact ih.deliver message
  | setClock clock _ ih => exact ih.move (.setClock clock)

end Session

end ChatCommands
