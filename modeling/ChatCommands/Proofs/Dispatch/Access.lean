import ChatCommands.Proofs.Dispatch.Handling
import ChatCommands.Proofs.Registry.Valid
import ChatCommands.Proofs.Session.Limits

namespace ChatCommands

variable {α : Type}

/-- Holds of the outcomes that come before any limit is charged. -/
def Outcome.IsEarly : Outcome → Prop
  | .ignored | .notFound | .denied _ => True
  | .handled | .rejected => False

namespace Bot

variable {bot : Bot α} {message : Message} {own during : List Exchange}

/-- An action runs for a leaf only when the checks of the top-level command above it are passed. -/
theorem Handles.guarded {act : Act α} {result : Except CommandError Outcome}
    (course : bot.Handles message own (some act) during result) :
    ∃ above profile usage top, bot.registry.Lineage above (.leaf profile usage act.action) ∧
      act.command = profile.fullName ∧ (above ++ [Command.leaf profile usage act.action]).head? = some top ∧
      bot.Passes message own top := by
  have dispatched : (bot.dispatch message).run.Held own
      (.ok (.run act.inv act.command act.action act.values)) := by
    cases course with
    | acted run | actFailed run => exact run
  obtain ⟨_, _, top, rest, profile, usage, passes, called, ends, named⟩ :=
    (dispatches_of_held dispatched).arrives
  obtain ⟨text, token, _, _, found⟩ := called
  obtain ⟨above, place, first⟩ := Command.lineage_of_endingBelow (.top (Command.findLower?_mem found).1) ends
  exact ⟨above, profile, usage, top, place, named, first, passes⟩

theorem Handles.early {act? : Option (Act α)} {outcome : Outcome}
    (course : bot.Handles message own act? during (.ok outcome)) (early : outcome.IsEarly) :
    act? = none ∧ during = [] ∧ Prompt own := by
  cases course with
  | acted => exact early.elim
  | settled run =>
    cases (dispatches_of_held run).settles with
    | ignored prompt | notFound prompt | denied prompt => exact ⟨rfl, rfl, prompt⟩
    | rejected => exact early.elim

/-- The exchanges of a run of the handling that ends early. -/
theorem prompt_of_held {log : List Exchange} {outcome : Outcome}
    (run : (bot.handle message).run.Held log (.ok outcome)) (early : outcome.IsEarly) : Prompt log := by
  obtain ⟨own, act?, during, rfl, course⟩ := held_handle_iff.mp run
  obtain ⟨_, rfl, prompt⟩ := course.early early
  rwa [List.append_nil]

theorem limits_of_early {w after : World} {putOff : PutOff} {outcome : Outcome}
    (turn : (bot.handle message).run.advance w = (.ended (.ok outcome), putOff, after))
    (early : outcome.IsEarly) : after.limits = w.limits := by
  obtain ⟨log, follows, kept⟩ := Conversation.reaches_advance (c := (bot.handle message).run) (w := w)
  rw [turn] at follows kept
  exact kept (prompt_of_held follows early).1

theorem not_early_of_wait {w after : World} {putOff : PutOff} {due : Nat} {later : List Exchange}
    {rest : Conversation (Except CommandError Outcome)} {outcome : Outcome}
    (turn : (bot.handle message).run.advance w = (.waits due rest, putOff, after))
    (goesOn : rest.Held later (.ok outcome)) : ¬ outcome.IsEarly := by
  intro early
  obtain ⟨log, follows, _⟩ := Conversation.reaches_advance (c := (bot.handle message).run) (w := w)
  rw [turn] at follows
  -- The wait would be an exchange of a run that ends early, and those have none.
  obtain ⟨run, waits⟩ := follows later _ goesOn
  have prompt := (prompt_of_held run early).2
  rw [List.any_append, waits, Bool.or_true] at prompt
  cases prompt

/-- Access control of a bot. The actions that run are those of leaves at any depth; what is checked is the
command at the top above the leaf. -/
structure Guarded (bot : Bot α) (message : Message) : Prop where
  handles : ∀ {log result}, (bot.handle message).run.Held log result ↔
    ∃ own act? during, log = own ++ during ∧ bot.Handles message own act? during result
  /-- An action runs for one leaf, and only when the checks of the command at its top are passed. -/
  checked : ∀ {own act during result}, bot.Handles message own (some act) during result →
    ∃ above profile usage top, bot.registry.Lineage above (.leaf profile usage act.action) ∧
      (∀ {above' c}, bot.registry.Lineage above' c →
        (c.fullName = act.command ↔ above' = above ∧ c = .leaf profile usage act.action)) ∧
      (above ++ [Command.leaf profile usage act.action]).head? = some top ∧ bot.Passes message own top
  /-- What is checked at the top only is not set anywhere below. -/
  unflagged : ∀ {above c}, bot.registry.Lineage above c → above ≠ [] →
    c.profile.ownerOnly = false ∧ c.profile.dmAllowed = false
  early : ∀ {own act? during outcome}, bot.Handles message own act? during (.ok outcome) → outcome.IsEarly →
    act? = none ∧ during = [] ∧ own.any Exchange.charges = false
  /-- In no world do the hits on limits change when such an outcome is returned. -/
  untouched : ∀ {w after : World} {putOff outcome},
    (bot.handle message).run.advance w = (.ended (.ok outcome), putOff, after) → outcome.IsEarly →
    after.limits = w.limits
  /-- Such an outcome is returned at once: whoever waits comes to another. -/
  immediate : ∀ {w after : World} {putOff due rest later outcome},
    (bot.handle message).run.advance w = (.waits due rest, putOff, after) → rest.Held later (.ok outcome) →
    ¬ outcome.IsEarly

theorem handling_guarded {admitted : Group → Prop} (reach : bot.registry.Reachable admitted) :
    bot.Guarded message := by
  have sound := reach.sound
  refine ⟨held_handle_iff, fun course => ?_, sound.unflagged, fun course early => ?_, limits_of_early,
    not_early_of_wait⟩
  · obtain ⟨above, profile, usage, top, place, named, first, passes⟩ := course.guarded
    refine ⟨above, profile, usage, top, place, fun place' => ⟨fun same => ?_, ?_⟩, first, passes⟩
    · obtain rfl := sound.eq_of_fullName place' place (same.trans named)
      exact ⟨place'.unique sound.distinct sound.formed place, rfl⟩
    · rintro ⟨rfl, rfl⟩
      exact named.symm
  · obtain ⟨none, nothing, prompt⟩ := course.early early
    exact ⟨none, nothing, prompt.1⟩

/-- The innermost command of the sample runs, for its owner and in a channel that is not direct. -/
theorem handling_guarded_nested :
    sample.registry.Reachable Group.Made ∧ ∃ own act,
      sample.Handles ⟨"7", "general", "1", false, "!g remote new here"⟩ own (some act) [] (.ok .handled) ∧
        act.command = "git remote add" ∧
        ∃ top, sample.Passes ⟨"7", "general", "1", false, "!g remote new here"⟩ own top := by
  have taken : sample.text? ⟨"7", "general", "1", false, "!g remote new here"⟩ = some "g remote new here" := by
    decide +kernel
  have split : Text.words "g remote new here" = ["g", "remote", "new", "here"] := by decide +kernel
  have leaf : (match sample.registry.ending ["g", "remote", "new", "here"] with
      | .run c _ => some c.fullName
      | _ => none) = some "git remote add" := by decide +kernel
  obtain ⟨own, result, run, clear⟩ := (sample.dispatch _).run.exists_clear_run
  obtain ⟨verdict, rfl, shown⟩ := clears_dispatch rfl taken split (fun _ _ _ => rfl) own result run clear
  cases shape : sample.registry.ending ["g", "remote", "new", "here"] with
  | run c values =>
    rw [shape] at leaf shown
    obtain ⟨_, _, _, action, time, _, rfl⟩ := shown
    have course : sample.Handles _ own (some ⟨_, _, action, values⟩) [] (.ok .handled) := .acted run .done
    obtain ⟨_, _, _, top, _, _, _, passes⟩ := (handling_guarded Registry.Sample.reachable).checked course
    exact ⟨Registry.Sample.reachable, own, _, course, Option.some.inj leaf, top, passes⟩
  | leafUsage | branchUsage | notFound =>
    rw [shape] at leaf
    cases leaf

end Bot

end ChatCommands
