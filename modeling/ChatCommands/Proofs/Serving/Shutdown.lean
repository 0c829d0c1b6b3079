import ChatCommands.Proofs.Serving.Loop

namespace ChatCommands

variable {α : Type} {bot : Bot α}

namespace Inbox

variable {inbox left : Inbox} {message : Message} {stopFirst : Bool}

/-- After a shutdown a turn takes what waits if it looks at the inbox first, and ends the loop otherwise. -/
theorem turn_shutdown : inbox.turn true stopFirst =
    match stopFirst, inbox.queue with
    | false, message :: rest => .takes message { inbox with queue := rest }
    | _, _ => .ends := by
  rw [turn]
  cases inbox.queue <;> cases stopFirst <;> rfl

theorem stopFirst_of_turn_takes (taken : inbox.turn true stopFirst = .takes message left) : stopFirst = false := by
  rw [turn_shutdown] at taken
  cases stopFirst with
  | false => rfl
  | true => cases taken

end Inbox

namespace Serving

variable {s : State}

/-- One turn of the loop, which looks at the shutdown first or at the inbox. -/
inductive Turn (bot : Bot α) (stopFirst : Bool) : State → State → Prop
  | take {s : State} {message left} : s.ended = false → s.inbox.turn s.shutdown stopFirst = .takes message left →
      Turn bot stopFirst s { s with inbox := left, taken := s.taken ++ [message],
                                    handlers := s.handlers ++ [⟨message, [], bot.attend message⟩] }
  | stop {s : State} : s.ended = false → s.inbox.turn s.shutdown stopFirst = .ends →
      Turn bot stopFirst s { s with ended := true }

/-- Runs, with what each turn of the loop looks at first. All other moves leave the loop where it is. -/
inductive Turns (bot : Bot α) (s : State) : List Bool → State → Prop
  | start : Turns bot s [] s
  | turn {choices mid after} (stopFirst : Bool) : Turns bot s choices mid → Turn bot stopFirst mid after →
      Turns bot s (choices ++ [stopFirst]) after
  | other {choices mid after} : Turns bot s choices mid → Step bot mid after → after.taken = mid.taken →
      after.ended = mid.ended → Turns bot s choices after

variable {after : State} {choices : List Bool}

theorem Turn.step {stopFirst : Bool} (turn : Turn bot stopFirst s after) : Step bot s after := by
  cases turn with
  | take going taken => exact .take stopFirst going taken
  | stop going ends => exact .stop stopFirst going ends

theorem Step.turn_or_other (step : Step bot s after) :
    (∃ stopFirst, Turn bot stopFirst s after) ∨ after.taken = s.taken ∧ after.ended = s.ended := by
  cases step with
  | send | close | shutdown | move => exact .inr ⟨rfl, rfl⟩
  | take stopFirst going taken => exact .inl ⟨stopFirst, .take going taken⟩
  | stop stopFirst going ends => exact .inl ⟨stopFirst, .stop going ends⟩

theorem steps_iff_turns : Relation.ReflTransGen (Step bot) s after ↔ ∃ choices, Turns bot s choices after := by
  constructor
  · intro run
    induction run with
    | refl => exact ⟨[], .start⟩
    | tail _ step ih =>
      obtain ⟨choices, turns⟩ := ih
      rcases step.turn_or_other with ⟨stopFirst, turn⟩ | ⟨taken, ended⟩
      · exact ⟨choices ++ [stopFirst], turns.turn stopFirst turn⟩
      · exact ⟨choices, turns.other step taken ended⟩
  · rintro ⟨choices, turns⟩
    induction turns with
    | start => exact .refl
    | turn _ _ turn ih => exact ih.tail turn.step
    | other _ step _ _ ih => exact ih.tail step

/-- A shutdown is not taken back. -/
theorem Step.shutdown_stays (step : Step bot s after) (asked : s.shutdown = true) : after.shutdown = true := by
  cases step with
  | send | close | take | stop => exact asked
  | shutdown => rfl
  | move => rw [asked, Bool.true_or]

theorem Turns.shutdown_stays (turns : Turns bot s choices after) (asked : s.shutdown = true) :
    after.shutdown = true := by
  induction turns with
  | start => exact asked
  | turn _ _ turn ih => exact turn.step.shutdown_stays ih
  | other _ step _ _ ih => exact step.shutdown_stays ih

/-- How far a loop is after a shutdown: it took `late` in as many turns, all of which looked at the inbox first, and
may have ended in the turn after these. -/
inductive Lingers (late : List Message) : List Bool → Bool → Prop
  | going : Lingers late (List.replicate late.length false) false
  | ended (last : Bool) : Lingers late (List.replicate late.length false ++ [last]) true

/-- After a shutdown the loop is not held up: a turn ends it, or takes a message that waits. It takes as many messages
as it looks at the inbox first in a row, and the first turn that looks at the shutdown first ends it. -/
theorem Turns.after_shutdown (turns : Turns bot s choices after) (asked : s.shutdown = true)
    (going : s.ended = false) :
    (∃ late, after.taken = s.taken ++ late ∧ Lingers late choices after.ended) ∧
    ∀ stopFirst, after.ended = false → ∃ next, Turn bot stopFirst after next := by
  refine ⟨?_, fun stopFirst running => ?_⟩
  · induction turns with
    | start => exact ⟨[], (List.append_nil _).symm, going ▸ .going⟩
    | turn stopFirst earlier turn ih =>
      obtain ⟨late, took, lingers⟩ := ih
      have halted := earlier.shutdown_stays asked
      cases turn with
      | @take message left running taken =>
        rw [running] at lingers
        rw [halted] at taken
        obtain rfl := Inbox.stopFirst_of_turn_takes taken
        cases lingers
        refine ⟨late ++ [message], by rw [took, List.append_assoc], ?_⟩
        have longer :
            List.replicate late.length false ++ [false] = List.replicate (late ++ [message]).length false := by
          rw [List.length_append, List.length_singleton, List.replicate_succ']
        rw [longer, running]
        exact .going
      | stop running _ =>
        rw [running] at lingers
        cases lingers
        exact ⟨late, took, .ended stopFirst⟩
    | other _ _ taken ended ih =>
      rw [taken, ended]
      exact ih
  · have halted := turns.shutdown_stays asked
    cases outcome : after.inbox.turn after.shutdown stopFirst with
    | takes message left => exact ⟨_, .take running outcome⟩
    | ends => exact ⟨_, .stop running outcome⟩
    | waits =>
      rw [halted, Inbox.turn_shutdown] at outcome
      split at outcome <;> cases outcome

/-- A loop that always looks at the shutdown first takes nothing after it. -/
theorem Turns.nothing_taken (turns : Turns bot s choices after) (asked : s.shutdown = true) (going : s.ended = false)
    (heeds : ∀ stopFirst ∈ choices, stopFirst = true) : after.taken = s.taken := by
  obtain ⟨⟨late, took, lingers⟩, _⟩ := turns.after_shutdown asked going
  cases late with
  | nil => rw [took, List.append_nil]
  | cons message rest =>
    have first : false ∈ choices := by
      generalize after.ended = ended at lingers
      cases lingers with
      | going => exact List.mem_cons_self ..
      | ended last => exact List.mem_cons_self ..
    cases heeds false first

/-- A loop that looks at the inbox first takes what waits there, though a shutdown was asked for before. -/
theorem taken_after_shutdown :
    ¬∀ (bot : Bot Unit) (inbox : Inbox) (s after : State), Relation.ReflTransGen (Step bot) (.start inbox false) s →
      s.shutdown = true → Relation.ReflTransGen (Step bot) s after → after.taken = s.taken := by
  intro always
  have asked : Relation.ReflTransGen (Step Sample.greeter)
      (.start { queue := [Sample.first, Sample.second] } false)
      { State.start { queue := [Sample.first, Sample.second] } false with shutdown := true } := .single .shutdown
  have later := always _ _ _ _ asked rfl (.head (.take false rfl rfl) (.single (.take false rfl rfl)))
  cases later

end Serving

end ChatCommands
