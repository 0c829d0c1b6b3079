import ChatCommands.Proofs.Waiting.Take

namespace ChatCommands.Memory

theorem length_of_extract? {β : Type} {chosen : β → Bool} {entries rest : List β} {b : β}
    (found : extract? chosen entries = some (b, rest)) : rest.length < entries.length := by
  obtain ⟨front, back, rfl, rfl, _⟩ := split_of_extract? found
  rw [List.length_append, List.length_append, List.length_cons]
  exact Nat.lt_succ_self _

/-- Hands reactions out one by one. Each time the queue is searched from its beginning for an entry that may go to
message `id`, the entry is taken out, and `admits` is asked about it, whatever else it may do. The queue gets shorter
each time. -/
def handOut {M : Type → Type} [Monad M] (id : MessageId) (admits : Reaction → M Bool) (queue : List QueuedReaction) :
    M (Option Reaction × List QueuedReaction) :=
  match search : extract? (·.isFor id) queue with
  | none => pure (none, queue)
  | some (q, left) => do
    have : left.length < queue.length := length_of_extract? search
    if ← admits (q.seenOn id) then return (some (q.seenOn id), left)
    else handOut id admits left
termination_by queue.length

/-- Admits what `accepts` accepts, and notes down what it was asked about. -/
def noting (accepts : Reaction → Bool) (reaction : Reaction) : StateM (List Reaction) Bool := do
  modify (· ++ [reaction])
  return accepts reaction

/-- How reactions may be handed out to message `id`, with what is found, what is left and what is removed. Nothing is
wanted and all that may go to the message is removed, or the oldest that is wanted is found, and removed with those
before it that may go to the message. -/
inductive HandsOut (id : MessageId) (accepts : Reaction → Bool) :
    List QueuedReaction → Option Reaction → List QueuedReaction → List QueuedReaction → Prop
  | vain {queue} : (∀ q ∈ queue, q.isFor id = true → accepts (q.seenOn id) = false) →
      HandsOut id accepts queue none (queue.filter (!·.isFor id)) (queue.filter (·.isFor id))
  | found {front q back} : (∀ x ∈ front, x.isFor id = true → accepts (x.seenOn id) = false) → q.isFor id = true →
      accepts (q.seenOn id) = true →
      HandsOut id accepts (front ++ q :: back) (some (q.seenOn id)) (front.filter (!·.isFor id) ++ back)
        (front.filter (·.isFor id) ++ [q])

variable {id : MessageId} {accepts : Reaction → Bool} {queue left removed : List QueuedReaction} {q : QueuedReaction}
  {found? : Option Reaction}

theorem handed_append {front : List QueuedReaction} (others : ∀ q ∈ front, q.isFor id = false) :
    handed id accepts (front ++ queue) = handed id accepts queue := by
  induction front with
  | nil => rfl
  | cons q rest ih =>
    obtain ⟨other, more⟩ := List.forall_mem_cons.mp others
    rw [List.cons_append, handed, if_neg (Bool.eq_false_iff.mp other), ih more]

/-- One pass over the queue does what all the searches do, and the questions are about the entries that go. -/
theorem run_handOut (asked : List Reaction) : (handOut id (noting accepts) queue).run asked =
    (offer id accepts queue, asked ++ (handed id accepts queue).map (·.seenOn id)) := by
  induction length : queue.length using Nat.strong_induction_on generalizing queue asked with
  | _ n ih =>
    subst length
    rw [handOut]
    split
    · rename_i search
      have others := extract?_eq_none_iff.mp search
      have nothing : handed id accepts (queue ++ []) = [] := handed_append others
      rw [List.append_nil] at nothing
      rw [offer_of_isFor_eq_false others, nothing, List.map_nil, List.append_nil]
      rfl
    · rename_i q left search
      have shorter := length_of_extract? search
      obtain ⟨front, back, rfl, rfl, mine, others⟩ := split_of_extract? search
      have later := @ih _ shorter (front ++ back) (asked ++ [q.seenOn id]) rfl
      rw [offer_append others, handed_append others, List.append_assoc] at later
      rw [offer_append others, handed_append others, offer_cons, handed, if_pos mine, if_pos mine]
      by_cases accepted : accepts (q.seenOn id) = true
      · simp only [noting, accepted, if_true]
        rfl
      · rw [if_neg accepted, if_neg accepted]
        simp only [noting, accepted]
        exact later

namespace HandsOut

/-- An entry for another message stays, and nobody is asked about it. -/
theorem skip (hands : HandsOut id accepts queue found? left removed) (other : q.isFor id = false) :
    HandsOut id accepts (q :: queue) found? (q :: left) removed := by
  have refused : q.isFor id = true → accepts (q.seenOn id) = false := fun mine => by rw [other] at mine; cases mine
  have stays (rest : List QueuedReaction) : (q :: rest).filter (!·.isFor id) = q :: rest.filter (!·.isFor id) :=
    List.filter_cons_of_pos (by rw [other]; rfl)
  have unasked (rest : List QueuedReaction) : (q :: rest).filter (·.isFor id) = rest.filter (·.isFor id) :=
    List.filter_cons_of_neg (by rw [other]; nofun)
  cases hands with
  | vain none =>
    have hands := HandsOut.vain (List.forall_mem_cons.mpr ⟨refused, none⟩)
    rwa [stays, unasked] at hands
  | @found front _ back older mine accepted =>
    have hands := @HandsOut.found id accepts _ _ back (List.forall_mem_cons.mpr ⟨refused, older⟩) mine accepted
    rwa [stays, unasked] at hands

/-- An entry for the message that is not wanted goes. -/
theorem reject (hands : HandsOut id accepts queue found? left removed) (mine : q.isFor id = true)
    (refused : accepts (q.seenOn id) = false) : HandsOut id accepts (q :: queue) found? left (q :: removed) := by
  have goes (rest : List QueuedReaction) : (q :: rest).filter (!·.isFor id) = rest.filter (!·.isFor id) :=
    List.filter_cons_of_neg (by rw [mine]; nofun)
  have asked (rest : List QueuedReaction) : (q :: rest).filter (·.isFor id) = q :: rest.filter (·.isFor id) :=
    List.filter_cons_of_pos mine
  cases hands with
  | vain none =>
    have hands := HandsOut.vain (List.forall_mem_cons.mpr ⟨fun _ => refused, none⟩)
    rwa [goes, asked] at hands
  | @found front _ back older own accepted =>
    have hands := @HandsOut.found id accepts _ _ back (List.forall_mem_cons.mpr ⟨fun _ => refused, older⟩) own accepted
    rwa [goes, asked] at hands

theorem others_stay (hands : HandsOut id accepts queue found? left removed) :
    left.filter (!·.isFor id) = queue.filter (!·.isFor id) := by
  cases hands with
  | vain => simp only [List.filter_filter, Bool.and_self]
  | @found front q back _ mine =>
    have goes : (q :: back).filter (!·.isFor id) = back.filter (!·.isFor id) :=
      List.filter_cons_of_neg (by rw [mine]; nofun)
    simp only [List.filter_append, List.filter_filter, Bool.and_self, goes]

theorem eq_none_iff (hands : HandsOut id accepts queue found? left removed) :
    found? = none ↔ ∀ q ∈ queue, q.isFor id = true → accepts (q.seenOn id) = false := by
  cases hands with
  | vain none => exact ⟨fun _ => none, fun _ => rfl⟩
  | found _ mine accepted =>
    refine ⟨nofun, fun none => ?_⟩
    rw [none _ (List.mem_append_right _ (List.mem_cons_self ..)) mine] at accepted
    cases accepted

end HandsOut

theorem handsOut_offer :
    HandsOut id accepts queue (offer id accepts queue).1 (offer id accepts queue).2 (handed id accepts queue) := by
  induction queue with
  | nil => exact .vain (List.forall_mem_nil _)
  | cons q rest ih =>
    rw [offer_cons, handed]
    cases mine : q.isFor id with
    | false => exact ih.skip mine
    | true =>
      cases accepted : accepts (q.seenOn id) with
      | true => exact @HandsOut.found id accepts [] q rest (List.forall_mem_nil _) mine accepted
      | false => exact ih.reject mine accepted

/-- Whoever asks for a reaction to a message gets the oldest that may go to it and is accepted. All that may go to it
is removed up to there, and nothing else; the filter is asked about each entry that is removed, once and in order. -/
theorem takeReaction_hands_out (m : Memory) (message : Message) (accepts : Reaction → Bool) :
    ∃ found? left removed,
      m.takeReaction message accepts = (found?, { m with queued := left }) ∧
      HandsOut message.id accepts m.queued found? left removed ∧
      (found? = none ↔ ∀ q ∈ m.queued, q.isFor message.id = true → accepts (q.seenOn message.id) = false) ∧
      left.filter (!·.isFor message.id) = m.queued.filter (!·.isFor message.id) ∧
      ∀ asked, (handOut message.id (noting accepts) m.queued).run asked =
        ((found?, left), asked ++ removed.map (·.seenOn message.id)) :=
  have hands := handsOut_offer
  ⟨_, _, _, rfl, hands, hands.eq_none_iff, hands.others_stay, run_handOut⟩

end ChatCommands.Memory
