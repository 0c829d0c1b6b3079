import ChatCommands.Proofs.Chat.Run

namespace ChatCommands.Conversation

variable {α β : Type}

/-- The places that a conversation can come to, whoever answers: the exchanges up to there, and what is left. -/
inductive Comes : Conversation α → List Exchange → Conversation α → Prop
  | start {c} : Comes c [] c
  | ask {request next answer log rest} : Comes (next answer) log rest →
      Comes (.ask request next) (⟨request, answer⟩ :: log) rest

theorem Comes.trans {c between rest : Conversation α} {first later : List Exchange} (comes : c.Comes first between)
    (goes : between.Comes later rest) : c.Comes (first ++ later) rest := by
  induction comes with
  | start => exact goes
  | ask _ ih => exact .ask (ih goes)

theorem Comes.held {c rest : Conversation α} {log later : List Exchange} {value : α} (comes : c.Comes log rest)
    (run : rest.Held later value) :
    c.Held (log ++ later) value := by
  induction comes with
  | start => exact run
  | ask _ ih => exact .ask (ih run)

/-- A place in two conversations, one after the other, is either before the end of the first or in the second. -/
theorem comes_bind_iff {c : Conversation α} {f : α → Conversation β} {log : List Exchange} {rest : Conversation β} :
    (c.bind f).Comes log rest ↔
      (∃ request next, c.Comes log (.ask request next) ∧ rest = .ask request fun answer => (next answer).bind f) ∨
      ∃ first later value, log = first ++ later ∧ c.Held first value ∧ (f value).Comes later rest := by
  constructor
  · intro comes
    induction c generalizing log with
    | done value => exact .inr ⟨[], log, value, rfl, .done, comes⟩
    | ask request next ih =>
      cases comes with
      | start => exact .inl ⟨request, next, .start, rfl⟩
      | ask comes =>
        rcases ih _ comes with ⟨_, _, before, same⟩ | ⟨first, later, value, rfl, held, after⟩
        · exact .inl ⟨_, _, .ask before, same⟩
        · exact .inr ⟨_ :: first, later, value, rfl, .ask held, after⟩
  · rintro (⟨request, next, comes, rfl⟩ | ⟨first, later, value, rfl, held, after⟩)
    · generalize stop : Conversation.ask request next = place at comes
      induction comes with
      | start =>
        subst stop
        exact .start
      | ask _ ih => exact .ask (ih stop)
    · induction held with
      | done => exact after
      | ask _ ih => exact .ask (ih after)

end ChatCommands.Conversation
