import ChatCommands.Proofs.Chat.Progress
import ChatCommands.Proofs.Session.Turns

namespace ChatCommands

namespace Conversation

variable {β : Type} {c : Conversation β} {due? : Option Nat} {w : World}

/-- The conversation can come to this call, whoever answers. -/
def Calls (c : Conversation β) (call : ChatCall) : Prop := ∃ log next, c.Comes log (.ask (.chat call) next)

/-- What a turn that begins in `w` can come to, when `due?` is the end of the wait that it began with. The conversation
goes on waiting only before that end; otherwise it gets further, if only to the next wait. -/
inductive Proceeds (c : Conversation β) (due? : Option Nat) (w : World) : Turn β × PutOff × World → Prop
  | ended {log value putOff after} : c.Held log value → w.Still after → Proceeds c due? w (.ended value, putOff, after)
  | moved {e log rest due putOff after} : c.Comes (e :: log) rest → w.Still after →
      Proceeds c due? w (.waits due rest, putOff, after)
  | stayed {due after} : c.Waits → (∀ d ∈ due?, w.now < d) → w.Still after → Proceeds c due? w (.waits due c, [], after)
  | crashed {call timeout putOff after} : c.Calls call → call.timeout? = some timeout →
      w.deadline? timeout = none → w.Still after → Proceeds c due? w (.crashed, putOff, after)

theorem Proceeds.ask {request : Request} {next : request.Answer → Conversation β} {answer : request.Answer}
    {between : World} {turn : Turn β × PutOff × World} {putOff : PutOff}
    (proceeds : (next answer).Proceeds none between turn) (still : w.Still between) :
    (Conversation.ask request next).Proceeds due? w (turn.1, putOff, turn.2.2) := by
  cases proceeds with
  | ended run kept => exact .ended (.ask run) (still.trans kept)
  | moved comes kept => exact .moved (.ask comes) (still.trans kept)
  | stayed _ _ kept => exact .moved (.ask .start) (still.trans kept)
  | crashed calls waits endless kept =>
    obtain ⟨log, next, comes⟩ := calls
    exact .crashed ⟨_, next, .ask comes⟩ waits ((still.deadline?_eq _).symm.trans endless) (still.trans kept)

theorem Proceeds.of_busy {turn : Turn β × PutOff × World} (proceeds : c.Proceeds none w turn) (busy : ¬ c.Waits) :
    c.Proceeds due? w turn := by
  cases proceeds with
  | ended run kept => exact .ended run kept
  | moved comes kept => exact .moved comes kept
  | stayed waits => exact absurd waits busy
  | crashed calls waits endless kept => exact .crashed calls waits endless kept

theorem waits_of_timeout {call : ChatCall} {next : Except ChatError call.Value → Conversation β}
    (waits : call.timeout?.isSome = true) : (Conversation.ask (.chat call) next).Waits := by
  cases call with
  | awaitReply | awaitReaction => trivial
  | _ => cases waits

theorem Advances.proceeds {turn : Turn β × PutOff × World} (advances : c.Advances due? w turn) :
    c.Proceeds due? w turn := by
  induction advances with
  | done => exact .ended .done (.refl _)
  | ask meets _ ih => exact ih.ask meets.still
  | sleeps looks _ early =>
    refine .stayed (waits_of_timeout looks.waits) ?_ looks.still
    rw [looks.still.now] at early
    cases looks with
    | first => exact nofun
    | again =>
      rintro _ ⟨⟩
      exact early
  | pauses ends early =>
    refine .stayed trivial ?_ (.refl _)
    rintro _ ⟨⟩
    exact Nat.lt_of_lt_of_eq early ends
  | crashed waits passed endless =>
    have still := World.still_of_fault passed
    exact .crashed ⟨_, _, .start⟩ waits ((still.deadline?_eq _).symm.trans endless) still
  | busy idle _ ih => exact ih.of_busy idle

end Conversation

namespace Conversation

variable {β : Type} {w after : World} {call : ChatCall} {next : Except ChatError call.Value → Conversation β}

/-- A call that waits for nothing is answered by the platform. -/
theorem advance_of_perform {answer : Except ChatError call.Value} (calm : w.Calm) (prompt : call.timeout? = none)
    (look : w.perform call = (answer, after)) : (ask (.chat call) next).advance w = (next answer).advance after := by
  cases call with
  | awaitReply | awaitReaction => cases prompt
  | _ => simp only [advance, World.call, calm.meetFault_eq, look]

/-- A wait whose end no clock can show gets no answer, whatever there is to be found. -/
theorem advance_of_late {timeout : Nat} (calm : w.Calm) (waits : call.timeout? = some timeout)
    (late : World.clockEnd ≤ w.now + timeout) : (ask (.chat call) next).advance w = (.crashed, [], w) := by
  cases call with
  | awaitReply | awaitReaction =>
    cases waits
    simp only [advance, calm.meetFault_eq, World.deadline?_eq_none_iff.mpr late]
  | _ => cases waits

end Conversation

/-- What is to happen to the messages that were put off. -/
def PutOff.tasks {ρ : Type} (putOff : PutOff) : List (Task ρ) :=
  putOff.map fun (message, delay) => .later delay (.delete message) none

theorem PutOff.filterMap_tasks {ρ α : Type} {f : Task ρ → Option α} (putOff : PutOff)
    (nothing : ∀ delay event due?, f (.later delay event due?) = none) :
    (putOff.tasks : List (Task ρ)).filterMap f = [] := by
  refine List.filterMap_eq_nil_iff.mpr fun task member => ?_
  obtain ⟨_, _, rfl⟩ := List.mem_map.mp member
  exact nothing ..

namespace Task

variable {ρ : Type}

/-- What a task comes to by some exchanges. Only conversations get any further. -/
inductive Comes : Task ρ → List Exchange → Task ρ → Prop
  | main {talk log rest due? again?} : talk.Comes log rest → Comes (.main talk due?) log (.main rest again?)
  | aside {talk log rest due? again?} : talk.Comes log rest → Comes (.aside talk due?) log (.aside rest again?)
  | later {delay event due? again?} : Comes (.later delay event due?) [] (.later delay event again?)

/-- What the end of a conversation adds to the outcome of a session. -/
inductive Ends : Task ρ → Option ρ → Prop
  | main {talk log value due?} : talk.Held log value → Ends (.main talk due?) (some value)
  | aside {talk due?} : Ends (.aside talk due?) none

inductive Calls : Task ρ → ChatCall → Prop
  | main {talk call due?} : talk.Calls call → Calls (.main talk due?) call
  | aside {talk call due?} : talk.Calls call → Calls (.aside talk due?) call

/-- A task that holds a conversation, the tasks that it is made again, and what its end means. -/
structure Holds {β : Type} (task : Task ρ) (talk : Conversation β) (again : Conversation β → Nat → Task ρ)
    (ended : β → Option ρ) : Prop where
  comes : ∀ {log rest due}, talk.Comes log rest → task.Comes log (again rest due)
  due : ∀ {rest due}, (again rest due).due? = some due
  ends : ∀ {log value}, talk.Held log value → task.Ends (ended value)
  calls : ∀ {call}, talk.Calls call → task.Calls call

end Task

namespace Session

variable {ρ : Type} {s after : Session ρ} {turns : Nat}

/-- What can become of a session when a task has its turn, or time passes. A turn in which no request was answered
brings nothing new, and leads to a wait whose end is still to come. -/
inductive Step (s : Session ρ) : Session ρ → Prop
  | ended {task rest value? world} (putOff : PutOff) : s.ready = task :: rest → task.Ends value? → s.world.Still world →
      Step s ⟨world, rest ++ putOff.tasks, s.waiting, value? <|> s.result?⟩
  | waits {task rest log left world} (putOff : PutOff) : s.ready = task :: rest → task.Comes log left →
      (log = [] → putOff = [] ∧ ∀ d ∈ task.due?, s.world.now < d) → left.due?.isSome → s.world.Still world →
      Step s ⟨world, rest ++ putOff.tasks, s.waiting ++ [left], s.result?⟩
  | crashed {task rest call timeout world} (putOff : PutOff) : s.ready = task :: rest → task.Calls call →
      call.timeout? = some timeout → s.world.deadline? timeout = none → s.world.Still world →
      Step s ⟨{ world with crashed := true }, rest ++ putOff.tasks, s.waiting, s.result?⟩
  | occurred {delay event due? rest ready waiting world} : s.ready = .later delay event due? :: rest → rest ⊆ ready →
      (ready ++ waiting).Perm (rest ++ s.waiting) → s.world.Still world → Step s ⟨world, ready, waiting, s.result?⟩
  | passed {now} : s.ready = [] → s.result? = none → s.world.crashed = false →
      (s.waiting.filterMap (·.due?)).min? = some now →
      Step s ⟨{ s.world with now := max now s.world.now }, s.waiting.filter (·.isDue now),
        s.waiting.filter (!·.isDue now), s.result?⟩

theorem step_settleTurn {β : Type} {task : Task ρ} {rest : List (Task ρ)} {talk : Conversation β}
    {again : Conversation β → Nat → Task ρ} {ended : β → Option ρ} {turn : Turn β × PutOff × World}
    (ready : s.ready = task :: rest) (holds : task.Holds talk again ended)
    (proceeds : talk.Proceeds task.due? s.world turn) :
    s.Step (settleTurn { s with ready := rest } again ended turn) := by
  cases proceeds with
  | ended run still => exact .ended _ ready (holds.ends run) still
  | moved comes still =>
    exact .waits _ ready (holds.comes comes) nofun (Option.isSome_of_eq_some holds.due) still
  | stayed _ early still =>
    exact .waits [] ready (holds.comes .start) (fun _ => ⟨rfl, early⟩) (Option.isSome_of_eq_some holds.due) still
  | crashed calls waits endless still => exact .crashed _ ready (holds.calls calls) waits endless still

theorem step_occur {delay : Nat} {event happening : Happening} {due? : Option Nat} {rest : List (Task ρ)}
    (ready : s.ready = .later delay event due? :: rest) :
    s.Step (({ s with ready := rest } : Session ρ).occur happening) := by
  have still := s.world.still_occur happening
  cases happening with
  | pushReply | pushReaction =>
    refine .occurred ready (List.subset_append_left ..) ?_ still
    rw [List.append_assoc]
    exact (List.filter_append_perm _ _).append_left rest
  | _ => exact .occurred ready (List.Subset.refl _) (.refl _) still

theorem step_takeTurn {task : Task ρ} {rest : List (Task ρ)} (ready : s.ready = task :: rest) :
    s.Step (({ s with ready := rest } : Session ρ).takeTurn task) := by
  cases task with
  | main talk due? =>
    have holds : (Task.main talk due?).Holds talk (fun rest due => .main rest (some due)) some :=
      ⟨.main, rfl, .main, .main⟩
    exact step_settleTurn ready holds Conversation.advances_turn.proceeds
  | aside talk due? =>
    have holds : (Task.aside talk due? : Task ρ).Holds talk (fun rest due => .aside rest (some due)) fun _ => none :=
      ⟨.aside, rfl, fun _ => .aside, .aside⟩
    exact step_settleTurn ready holds Conversation.advances_turn.proceeds
  | later delay event due? =>
    unfold takeTurn
    simp only
    split
    · exact step_occur ready
    · rename_i late
      have early : ∀ d ∈ due?, s.world.now < d := by
        rintro due ⟨⟩
        exact Nat.lt_of_not_ge late
      have comes : (Task.later delay event due? : Task ρ).Comes []
          (.later delay event (some (due?.getD (s.world.now + delay)))) := .later
      have step := Step.waits [] ready comes (fun _ => ⟨rfl, early⟩) rfl (.refl s.world)
      rwa [PutOff.tasks, List.map_nil, List.append_nil] at step

/-- The session after the next turn, or after some time if nobody can have a turn. There is none when the session is at
rest. -/
def next? (s : Session ρ) : Option (Session ρ) :=
  match s.ready with
  | task :: rest => some (takeTurn { s with ready := rest } task)
  | [] => if s.result?.isSome || s.world.crashed then none else s.passTime?

theorem run_succ : run (turns + 1) s = s.next?.elim s (run turns) := by
  obtain ⟨world, ready, waiting, result?⟩ := s
  cases ready with
  | cons task rest => rfl
  | nil =>
    simp only [run, next?]
    split
    · rfl
    · split
      · rename_i stuck
        rw [stuck, Option.elim_none]
      · rename_i passes
        rw [passes, Option.elim_some]

theorem run_of_rest (rests : s.next? = none) : run turns s = s := by
  cases turns with
  | zero => rfl
  | succ turns => rw [run_succ, rests, Option.elim_none]

/-- Once a session is at rest it stays as it is, however many turns are given. -/
theorem run_of_le {more : Nat} (rests : (run turns s).next? = none) (enough : turns ≤ more) :
    run more s = run turns s := by
  induction turns generalizing s more with
  | zero => exact run_of_rest rests
  | succ turns ih =>
    obtain ⟨more, rfl⟩ := Nat.exists_eq_add_of_le' enough
    rw [← Nat.add_assoc, run_succ]
    rw [run_succ] at rests ⊢
    cases next : s.next? with
    | none => rfl
    | some after =>
      rw [next] at rests
      exact ih rests (Nat.le_add_left ..)

theorem step_of_next? (next : s.next? = some after) : s.Step after := by
  unfold next? at next
  split at next
  · rename_i ready
    cases next
    exact step_takeTurn ready
  · rename_i ready
    split at next
    · cases next
    · rename_i idle
      rw [Bool.or_eq_true, not_or, Option.not_isSome_iff_eq_none, Bool.not_eq_true] at idle
      obtain ⟨now, first, same⟩ := Option.bind_eq_some_iff.mp next
      cases same
      rw [ready, List.nil_append]
      exact .passed ready idle.1 idle.2 first

/-- Whatever every step keeps, a run keeps. -/
theorem run_induction {motive : Session ρ → Prop} (turns : Nat) (start : motive s)
    (step : ∀ {s after}, motive s → Step s after → motive after) : motive (run turns s) := by
  induction turns generalizing s with
  | zero => exact start
  | succ turns ih =>
    rw [run_succ]
    cases next : s.next? with
    | none => exact start
    | some after => exact ih (step start (step_of_next? next))

/-- The main conversation of a session asks for a wait without an end, and that is the end of it. -/
theorem hold_of_crashed {w later : World} (crashes : talk.advance w = (.crashed, [], later)) :
    ({ world := w } : Session ρ).hold talk = (none, { world := { later with crashed := true } }) := by
  have turn : next? ({ world := w, ready := [.main talk none] } : Session ρ) =
      some { world := { later with crashed := true } } := by
    simp only [next?, takeTurn, crashes, settleTurn]
    rfl
  have rests : next? ({ world := { later with crashed := true } } : Session ρ) = none := rfl
  have limit : turnLimit = 999999999 + 1 := rfl
  have run : run turnLimit ({ world := w, ready := [.main talk none] } : Session ρ) =
      { world := { later with crashed := true } } := by
    rw [limit, run_succ, turn, Option.elim_some, run_of_rest rests]
  rw [hold, List.nil_append, run]

end Session

end ChatCommands
