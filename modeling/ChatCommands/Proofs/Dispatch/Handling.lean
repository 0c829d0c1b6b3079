import ChatCommands.Proofs.Dispatch.Stages

namespace ChatCommands

variable {α : Type}

/-- The run of an action to which dispatch leads. `command` is the path of the leaf. -/
structure Act (α : Type) where
  inv : Invocation α
  command : String
  action : α
  values : List String

/-- What handling a message can come to: the exchanges of the bot's own, the action that runs, if any, the
exchanges while it runs, and the result. -/
inductive Bot.Handles (bot : Bot α) (message : Message) :
    List Exchange → Option (Act α) → List Exchange → Except CommandError Outcome → Prop
  | failed {own e} : (bot.dispatch message).run.Held own (.error e) → Handles bot message own none [] (.error e)
  | settled {own outcome} : (bot.dispatch message).run.Held own (.ok (.settled outcome)) →
      Handles bot message own none [] (.ok outcome)
  | acted {own during act} :
      (bot.dispatch message).run.Held own (.ok (.run act.inv act.command act.action act.values)) →
      (bot.perform act.action act.inv act.values).run.Held during (.ok ()) →
      Handles bot message own (some act) during (.ok .handled)
  | actFailed {own during act cause} :
      (bot.dispatch message).run.Held own (.ok (.run act.inv act.command act.action act.values)) →
      (bot.perform act.action act.inv act.values).run.Held during (.error cause) →
      Handles bot message own (some act) during (.error (.action act.command cause))

namespace Bot

open Talk

variable {bot : Bot α} {message : Message}

theorem held_carryOut_iff {inv : Invocation α} {command : String} {action : α} {values : List String}
    {log : List Exchange} {result : Except CommandError Outcome} :
    (bot.carryOut (.run inv command action values)).run.Held log result ↔
      ((bot.perform action inv values).run.Held log (.ok ()) ∧ result = .ok .handled) ∨
      ∃ cause, (bot.perform action inv values).run.Held log (.error cause) ∧
        result = .error (.action command cause) := by
  unfold carryOut
  rw [held_bind_iff]
  constructor
  · rintro (⟨e, run, rfl⟩ | ⟨_, _, _, rfl, run, last⟩)
    · obtain ⟨outcome, performed, same⟩ := held_orElseAs_iff.mp run
      cases outcome with
      | ok => cases same
      | error cause =>
        cases same
        exact .inr ⟨cause, performed, rfl⟩
    · obtain ⟨outcome, performed, same⟩ := held_orElseAs_iff.mp run
      obtain ⟨rfl, rfl⟩ := held_pure_iff.mp last
      rw [List.append_nil]
      cases outcome with
      | ok => exact .inl ⟨performed, rfl⟩
      | error => cases same
  · rintro (⟨run, rfl⟩ | ⟨cause, run, rfl⟩)
    · exact .inr ⟨log, [], (), (List.append_nil log).symm, held_orElseAs_iff.mpr ⟨_, run, rfl⟩,
        held_pure_iff.mpr ⟨rfl, rfl⟩⟩
    · exact .inl ⟨_, held_orElseAs_iff.mpr ⟨_, run, rfl⟩, rfl⟩

/-- The runs of handling a message are the runs of dispatch, each followed by a run of the action to which
it leads, and by nothing when it leads to none. -/
theorem held_handle_iff {log : List Exchange} {result : Except CommandError Outcome} :
    (bot.handle message).run.Held log result ↔
      ∃ own act? during, log = own ++ during ∧ bot.Handles message own act? during result := by
  rw [handle_eq, held_bind_iff]
  constructor
  · rintro (⟨e, run, rfl⟩ | ⟨own, during, verdict, rfl, run, last⟩)
    · exact ⟨log, none, [], (List.append_nil log).symm, .failed run⟩
    cases verdict with
    | settled outcome =>
      obtain ⟨rfl, rfl⟩ := held_pure_iff.mp last
      exact ⟨own, none, [], rfl, .settled run⟩
    | run inv command action values =>
      rcases held_carryOut_iff.mp last with ⟨done, rfl⟩ | ⟨cause, done, rfl⟩
      · exact ⟨own, some ⟨inv, command, action, values⟩, during, rfl, .acted run done⟩
      · exact ⟨own, some ⟨inv, command, action, values⟩, during, rfl, .actFailed run done⟩
  · rintro ⟨own, act?, during, rfl, course⟩
    cases course with
    | failed run =>
      rw [List.append_nil]
      exact .inl ⟨_, run, rfl⟩
    | settled run => exact .inr ⟨own, [], _, rfl, run, held_pure_iff.mpr ⟨rfl, rfl⟩⟩
    | acted run done => exact .inr ⟨own, during, _, rfl, run, held_carryOut_iff.mpr (.inl ⟨done, rfl⟩)⟩
    | actFailed run done =>
      exact .inr ⟨own, during, _, rfl, run, held_carryOut_iff.mpr (.inr ⟨_, done, rfl⟩)⟩

end Bot

end ChatCommands
