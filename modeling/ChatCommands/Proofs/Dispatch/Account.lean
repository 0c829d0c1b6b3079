import ChatCommands.Proofs.Dispatch.Handling

namespace ChatCommands

/-- Holds of the outcomes that the bot itself tells. -/
def Outcome.IsReplied : Outcome → Prop
  | .notFound | .denied _ | .rejected => True
  | .ignored | .handled => False

namespace Bot

variable {α : Type} {bot : Bot α} {message : Message} {own during : List Exchange} {act? : Option (Act α)}

section

variable {result : Except CommandError Outcome}

/-- The results of the handlings in which an action runs. -/
def Acted (result : Except CommandError Outcome) : Prop :=
  result = .ok .handled ∨ ∃ command cause, result = .error (.action command cause)

theorem Handles.acted_iff (course : bot.Handles message own act? during result) :
    act?.isSome = true ↔ Acted result := by
  cases course with
  | failed run =>
    have early := (dispatches_of_held run).isEarly
    refine ⟨fun some => (nomatch some), ?_⟩
    rintro (same | ⟨command, cause, same⟩)
    · cases same
    · cases same
      exact early.elim
  | settled run =>
    have settles := (dispatches_of_held run).settles
    refine ⟨fun some => (nomatch some), ?_⟩
    rintro (same | ⟨_, _, same⟩)
    · cases same
      cases settles
    · cases same
  | acted => exact ⟨fun _ => .inl rfl, fun _ => rfl⟩
  | actFailed => exact ⟨fun _ => .inr ⟨_, _, rfl⟩, fun _ => rfl⟩

theorem Handles.silent (course : bot.Handles message own act? during result)
    (outcome : result = .ok .ignored ∨ Acted result) : own.filter Exchange.posts = [] := by
  have acted := course.acted_iff
  cases course with
  | acted run | actFailed run => exact (dispatches_of_held run).arrives.1
  | failed =>
    rcases outcome with same | action
    · cases same
    · cases acted.mpr action
  | settled run =>
    have settles := (dispatches_of_held run).settles
    rcases outcome with same | action
    · cases same
      cases settles with
      | ignored _ _ silent => exact silent
    · cases acted.mpr action

theorem Handles.replies {outcome : Outcome} (course : bot.Handles message own act? during (.ok outcome))
    (replied : outcome.IsReplied) : RepliesOnce message.channel own := by
  cases course with
  | acted => exact replied.elim
  | settled run =>
    cases (dispatches_of_held run).settles with
    | ignored => exact replied.elim
    | notFound _ _ replies | denied _ _ replies | rejected _ _ replies => exact replies

theorem Handles.rejected_iff {outcome : Outcome} (course : bot.Handles message own act? during (.ok outcome)) :
    outcome = .rejected ↔ ∃ c, bot.Passes message own c ∧
      (own.any Exchange.refuses = true ∨ bot.Misused message) := by
  cases course with
  | acted run =>
    obtain ⟨_, unrefused, top, rest, profile, usage, _, called, ends, _⟩ := (dispatches_of_held run).arrives
    refine ⟨fun same => (nomatch same), ?_⟩
    rintro ⟨c, _, refused | misused⟩
    · cases unrefused.symm.trans refused
    · obtain ⟨d, other | other⟩ := called.misused_iff.mp misused <;> cases ends.symm.trans other
  | settled run =>
    cases (dispatches_of_held run).settles with
    | rejected passes why => exact ⟨fun _ => ⟨_, passes, why⟩, fun _ => rfl⟩
    | ignored _ barred | notFound _ barred | denied _ barred =>
      refine ⟨fun same => (nomatch same), ?_⟩
      rintro ⟨c, passes, _⟩
      exact absurd passes (barred c)

end

/-- Every handled message is accounted for exactly once. -/
structure Accounted (bot : Bot α) (message : Message) : Prop where
  /-- Dispatch, in which actions have no part, comes first. Then its verdict is carried out. -/
  dispatched : ∀ perform, { bot with perform }.handle message =
    bot.dispatch message >>= { bot with perform }.carryOut
  /-- Each run of the handling is made up of a run of dispatch and of a run of one action at most. -/
  handles : ∀ {log result}, (bot.handle message).run.Held log result ↔
    ∃ own act? during, log = own ++ during ∧ bot.Handles message own act? during result
  acts : ∀ {own act? during result}, bot.Handles message own act? during result →
    (act?.isSome = true ↔ Acted result)
  idle : ∀ {own during result}, bot.Handles message own none during result → during = []
  silent : ∀ {own act? during result}, bot.Handles message own act? during result →
    (result = .ok .ignored ∨ Acted result) → own.filter Exchange.posts = []
  replies : ∀ {own act? during outcome}, bot.Handles message own act? during (.ok outcome) →
    outcome.IsReplied → RepliesOnce message.channel own
  /-- What is rejected has passed all checks before, and is over some limit or misused. -/
  rejects : ∀ {own act? during outcome}, bot.Handles message own act? during (.ok outcome) →
    (outcome = .rejected ↔ ∃ c, bot.Passes message own c ∧
      (own.any Exchange.refuses = true ∨ bot.Misused message))

theorem handling_accounted : bot.Accounted message := by
  refine ⟨fun perform => handle_eq, held_handle_iff, fun course => course.acted_iff, fun course => ?_,
    fun course outcome => course.silent outcome, fun course outcome => course.replies outcome,
    fun course => course.rejected_iff⟩
  cases course <;> rfl

/-- A call of a branch, without a subcommand, is rejected with one reply. -/
theorem handling_accounted_stranded :
    ∃ own, sample.Handles ⟨"7", "general", "1", false, "!git"⟩ own none [] (.ok .rejected) ∧
      RepliesOnce "general" own ∧ ∃ c, sample.Passes ⟨"7", "general", "1", false, "!git"⟩ own c := by
  have taken : sample.text? ⟨"7", "general", "1", false, "!git"⟩ = some "git" := by decide +kernel
  have split : Text.words "git" = ["git"] := by decide +kernel
  have branch : (match sample.registry.ending ["git"] with
      | .branchUsage c => some c.fullName
      | _ => none) = some "git" := by decide +kernel
  obtain ⟨own, result, run, clear⟩ := (sample.dispatch _).run.exists_clear_run
  obtain ⟨verdict, rfl, shown⟩ := clears_dispatch rfl taken split (fun _ _ _ => rfl) own result run clear
  cases shape : sample.registry.ending ["git"] with
  | branchUsage c =>
    rw [shape] at shown
    obtain ⟨_, rfl, _⟩ := shown
    have course := Handles.settled run
    obtain ⟨top, passes, _⟩ := (handling_accounted.rejects course).mp rfl
    exact ⟨own, course, handling_accounted.replies course trivial, top, passes⟩
  | run | leafUsage | notFound =>
    rw [shape] at branch
    cases branch

end Bot

end ChatCommands
