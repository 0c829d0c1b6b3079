import Mathlib.Data.List.Perm.Basic
import Mathlib.Data.List.Sublists
import ChatCommands.Session.World

namespace ChatCommands

namespace Memory

section

variable {β : Type} {accepts : β → Bool} {queue left : List β} {b : β}

theorem extract?_eq_none_iff : extract? accepts queue = none ↔ ∀ b ∈ queue, accepts b = false := by
  induction queue with
  | nil => exact ⟨fun _ _ member => (nomatch member), fun _ => rfl⟩
  | cons first rest ih =>
    rw [extract?, List.forall_mem_cons]
    cases accepts first with
    | true => exact ⟨nofun, fun each => (nomatch each.1)⟩
    | false => exact Option.map_eq_none_iff.trans (ih.trans ⟨fun each => ⟨rfl, each⟩, fun each => each.2⟩)

/-- The entry that is taken is the oldest that is accepted, and nothing else is taken. -/
theorem split_of_extract? (found : extract? accepts queue = some (b, left)) :
    ∃ front back, queue = front ++ b :: back ∧ left = front ++ back ∧ accepts b = true ∧
      ∀ x ∈ front, accepts x = false := by
  induction queue generalizing left with
  | nil => cases found
  | cons first rest ih =>
    rw [extract?] at found
    split at found
    · rename_i accepted
      cases found
      exact ⟨[], rest, rfl, rfl, accepted, fun _ member => (nomatch member)⟩
    · rename_i rejected
      obtain ⟨⟨_, left'⟩, inner, same⟩ := Option.map_eq_some_iff.mp found
      cases same
      obtain ⟨front, back, rfl, rfl, accepted, older⟩ := ih inner
      exact ⟨first :: front, back, rfl, rfl, accepted,
        List.forall_mem_cons.mpr ⟨Bool.eq_false_iff.mpr rejected, older⟩⟩

end

theorem takeReply_cases (m : Memory) (channel : ChannelId) (accepts : Message → Bool) :
    (m.takeReply channel accepts = (none, m) ∧ ∀ r ∈ m.replies, (r.channel == channel && accepts r) = false) ∨
    ∃ front r back, m.replies = front ++ r :: back ∧ (r.channel == channel && accepts r) = true ∧
      (∀ x ∈ front, (x.channel == channel && accepts x) = false) ∧
      m.takeReply channel accepts =
        (some r, { m with replies := front ++ back, live := setEntry r.id r m.live }) := by
  rw [Memory.takeReply]
  cases look : extract? (fun r => r.channel == channel && accepts r) m.replies with
  | none => exact .inl ⟨rfl, extract?_eq_none_iff.mp look⟩
  | some entry =>
    obtain ⟨r, left⟩ := entry
    obtain ⟨front, back, split, rfl, accepted, older⟩ := split_of_extract? look
    exact .inr ⟨front, r, back, split, accepted, older, rfl⟩

end Memory

/-- May go to whoever waits for reactions to message `id`. -/
def QueuedReaction.isFor (q : QueuedReaction) (id : MessageId) : Bool := q.target?.all (· == id)

/-- What a queued reaction is to whoever waits for reactions to message `id`. -/
def QueuedReaction.seenOn (q : QueuedReaction) (id : MessageId) : Reaction := ⟨id, q.emoji, q.user, q.userIsBot⟩

namespace Memory

variable {id : MessageId} {accepts : Reaction → Bool} {queue : List QueuedReaction}

/-- The reactions that `offer` hands out. Only the last of them can have been accepted. -/
def handed (id : MessageId) (accepts : Reaction → Bool) : List QueuedReaction → List QueuedReaction
  | [] => []
  | q :: rest =>
    if q.isFor id then if accepts (q.seenOn id) then [q] else q :: handed id accepts rest
    else handed id accepts rest

theorem offer_cons (q : QueuedReaction) (rest : List QueuedReaction) : offer id accepts (q :: rest) =
    if q.isFor id then
      if accepts (q.seenOn id) then (some (q.seenOn id), rest) else offer id accepts rest
    else ((offer id accepts rest).1, q :: (offer id accepts rest).2) := rfl

theorem perm_offer : queue.Perm (handed id accepts queue ++ (offer id accepts queue).2) := by
  induction queue with
  | nil => exact .nil
  | cons q rest ih =>
    rw [offer_cons, handed]
    by_cases mine : q.isFor id = true
    · rw [if_pos mine, if_pos mine]
      by_cases accepted : accepts (q.seenOn id) = true
      · rw [if_pos accepted, if_pos accepted]
        exact .refl _
      · rw [if_neg accepted, if_neg accepted]
        exact ih.cons q
    · rw [if_neg mine, if_neg mine]
      exact (ih.cons q).trans List.perm_middle.symm

theorem offer_sublist : (offer id accepts queue).2.Sublist queue := by
  induction queue with
  | nil => exact .slnil
  | cons q rest ih =>
    rw [offer_cons]
    split
    · split
      · exact List.sublist_cons_self q rest
      · exact ih.cons q
    · exact ih.cons_cons q

/-- When nothing is found, all that was handed out has been rejected, and there was nothing to accept. -/
theorem rejected_of_offer (none : (offer id accepts queue).1 = none) :
    (∀ q ∈ handed id accepts queue, q.isFor id = true ∧ accepts (q.seenOn id) = false) ∧
      ∀ q ∈ queue, q.isFor id = true → accepts (q.seenOn id) = false := by
  induction queue with
  | nil => exact ⟨fun _ member => (nomatch member), fun _ member => (nomatch member)⟩
  | cons q rest ih =>
    rw [offer_cons] at none
    rw [handed]
    by_cases mine : q.isFor id = true
    · rw [if_pos mine] at none ⊢
      by_cases accepted : accepts (q.seenOn id) = true
      · rw [if_pos accepted] at none
        cases none
      · rw [if_neg accepted] at none ⊢
        have rejected := Bool.eq_false_iff.mpr accepted
        obtain ⟨gone, others⟩ := ih none
        exact ⟨List.forall_mem_cons.mpr ⟨⟨mine, rejected⟩, gone⟩,
          List.forall_mem_cons.mpr ⟨fun _ => rejected, others⟩⟩
    · rw [if_neg mine] at none ⊢
      obtain ⟨gone, others⟩ := ih none
      exact ⟨gone, List.forall_mem_cons.mpr ⟨fun yes => absurd yes mine, others⟩⟩

/-- When nothing is found, nothing is left that may go to the message. -/
theorem isFor_eq_false_of_offer (none : (offer id accepts queue).1 = none) :
    ∀ q ∈ (offer id accepts queue).2, q.isFor id = false := by
  induction queue with
  | nil => exact fun _ member => (nomatch member)
  | cons q rest ih =>
    rw [offer_cons] at none ⊢
    by_cases mine : q.isFor id = true
    · rw [if_pos mine] at none ⊢
      by_cases accepted : accepts (q.seenOn id) = true
      · rw [if_pos accepted] at none
        cases none
      · rw [if_neg accepted] at none ⊢
        exact ih none
    · rw [if_neg mine] at none ⊢
      exact List.forall_mem_cons.mpr ⟨Bool.eq_false_iff.mpr mine, ih none⟩

theorem offer_of_isFor_eq_false (others : ∀ q ∈ queue, q.isFor id = false) :
    offer id accepts queue = (none, queue) := by
  induction queue with
  | nil => rfl
  | cons q rest ih =>
    obtain ⟨other, more⟩ := List.forall_mem_cons.mp others
    rw [offer_cons, if_neg (Bool.eq_false_iff.mp other), ih more]

/-- What stands before all that may go to message `id` stays where it is. -/
theorem offer_append {front : List QueuedReaction} (others : ∀ q ∈ front, q.isFor id = false) :
    offer id accepts (front ++ queue) = ((offer id accepts queue).1, front ++ (offer id accepts queue).2) := by
  induction front with
  | nil => rfl
  | cons q rest ih =>
    obtain ⟨other, more⟩ := List.forall_mem_cons.mp others
    rw [List.cons_append, offer_cons, if_neg (Bool.eq_false_iff.mp other), ih more]
    rfl

/-- The first entry that is wanted is found, if there is one. Up to there, or to the end of the queue, only the entries
for other messages are left. -/
theorem offer_cases (id : MessageId) (accepts : Reaction → Bool) (queue : List QueuedReaction) :
    (queue.filter (fun q => q.isFor id && accepts (q.seenOn id)) = [] ∧
      offer id accepts queue = (none, queue.filter (!·.isFor id))) ∨
    ∃ front q back, queue = front ++ q :: back ∧
      front.filter (fun q => q.isFor id && accepts (q.seenOn id)) = [] ∧
      (q.isFor id && accepts (q.seenOn id)) = true ∧
      offer id accepts queue = (some (q.seenOn id), front.filter (!·.isFor id) ++ back) := by
  induction queue with
  | nil => exact .inl ⟨rfl, rfl⟩
  | cons q rest ih =>
    rw [offer_cons]
    cases mine : q.isFor id with
    | true =>
      cases accepted : accepts (q.seenOn id) with
      | true => exact .inr ⟨[], q, rest, rfl, rfl, by rw [mine, accepted]; rfl, rfl⟩
      | false =>
        rcases ih with ⟨none, offered⟩ | ⟨front, found, back, rfl, none, wanted, offered⟩
        · exact .inl (by simp [mine, accepted, none, offered])
        · exact .inr ⟨q :: front, found, back, rfl, by simp [mine, accepted, none], wanted, by simp [mine, offered]⟩
    | false =>
      rcases ih with ⟨none, offered⟩ | ⟨front, found, back, rfl, none, wanted, offered⟩
      · exact .inl (by simp [mine, none, offered])
      · exact .inr ⟨q :: front, found, back, rfl, by simp [mine, none], wanted, by simp [mine, offered]⟩

/-- What is found is the oldest entry that is accepted, and it is handed out last. -/
theorem split_of_offer {reaction : Reaction} (found : (offer id accepts queue).1 = some reaction) :
    ∃ rejected q front back, handed id accepts queue = rejected ++ [q] ∧
      (∀ r ∈ rejected, r.isFor id = true ∧ accepts (r.seenOn id) = false) ∧
      queue = front ++ q :: back ∧ (∀ x ∈ front, x.isFor id = true → accepts (x.seenOn id) = false) ∧
      q.isFor id = true ∧ accepts (q.seenOn id) = true ∧ reaction = q.seenOn id := by
  induction queue with
  | nil => cases found
  | cons q rest ih =>
    rw [offer_cons] at found
    rw [handed]
    by_cases mine : q.isFor id = true
    · rw [if_pos mine] at found ⊢
      by_cases accepted : accepts (q.seenOn id) = true
      · rw [if_pos accepted] at found ⊢
        cases found
        exact ⟨[], q, [], rest, rfl, fun _ member => (nomatch member), rfl, fun _ member => (nomatch member),
          mine, accepted, rfl⟩
      · rw [if_neg accepted] at found ⊢
        have no := Bool.eq_false_iff.mpr accepted
        obtain ⟨rejected, last, front, back, gone, each, rfl, older, facts⟩ := ih found
        exact ⟨q :: rejected, last, q :: front, back, by rw [gone, List.cons_append],
          List.forall_mem_cons.mpr ⟨⟨mine, no⟩, each⟩, rfl, List.forall_mem_cons.mpr ⟨fun _ => no, older⟩, facts⟩
    · rw [if_neg mine] at found ⊢
      obtain ⟨rejected, last, front, back, gone, each, rfl, older, facts⟩ := ih found
      exact ⟨rejected, last, q :: front, back, gone, each, rfl,
        List.forall_mem_cons.mpr ⟨fun yes => absurd yes mine, older⟩, facts⟩

end Memory

/-- Something that is queued until somebody waits for it. -/
inductive Event where
  | reply (message : Message)
  | reaction (queued : QueuedReaction)
deriving DecidableEq

/-- All that is queued. Entries of one kind stand in the order in which they came. -/
def Memory.events (m : Memory) : List Event := m.replies.map .reply ++ m.queued.map .reaction

/-- What somebody waits for: a reply in a channel, or a reaction to a message, and what is accepted. -/
inductive Wait where
  | reply (channel : ChannelId) (accepts : Message → Bool)
  | reaction (message : Message) (accepts : Reaction → Bool)

/-- What a wait yields. -/
inductive Found where
  | reply (message : Message)
  | reaction (reaction : Reaction)
deriving DecidableEq

namespace Wait

/-- This event may end the wait, which then yields `found`. -/
inductive Gets : Wait → Event → Found → Prop
  | reply {channel accepts r} : r.channel = channel → accepts r = true →
      Gets (.reply channel accepts) (.reply r) (.reply r)
  | reaction {message accepts q} : q.isFor message.id = true → accepts (q.seenOn message.id) = true →
      Gets (.reaction message accepts) (.reaction q) (.reaction (q.seenOn message.id))

/-- This event is used up by the wait, and does not end it. That is the way with reactions only: a reply
that is not accepted stays where it is. -/
inductive Rejects : Wait → Event → Prop
  | reaction {message accepts q} : q.isFor message.id = true → accepts (q.seenOn message.id) = false →
      Rejects (.reaction message accepts) (.reaction q)

theorem Gets.of_reply {wait : Wait} {r : Message} {found : Found} (gets : wait.Gets (.reply r) found) :
    ∃ channel accepts, wait = .reply channel accepts ∧ r.channel = channel ∧ accepts r = true ∧
      found = .reply r := by
  cases gets with
  | reply here admits => exact ⟨_, _, rfl, here, admits, rfl⟩

theorem Rejects.exists_reaction {wait : Wait} {e : Event} (rejects : wait.Rejects e) :
    ∃ message accepts q, wait = .reaction message accepts ∧ e = .reaction q ∧ q.isFor message.id = true ∧
      accepts (q.seenOn message.id) = false := by
  cases rejects with
  | reaction mine refused => exact ⟨_, _, _, rfl, rfl, mine, refused⟩

theorem Gets.of_reaction {wait : Wait} {q : QueuedReaction} {found : Found}
    (gets : wait.Gets (.reaction q) found) :
    ∃ message accepts, wait = .reaction message accepts ∧ q.isFor message.id = true ∧
      accepts (q.seenOn message.id) = true ∧ found = .reaction (q.seenOn message.id) := by
  cases gets with
  | reaction mine admits => exact ⟨_, _, rfl, mine, admits, rfl⟩

/-- One look at the queue. -/
def take : Wait → Memory → Option Found × Memory
  | .reply channel accepts, m => (m.takeReply channel accepts).map (·.map .reply) id
  | .reaction message accepts, m => (m.takeReaction message accepts).map (·.map .reaction) id

/-- The events that one look at the queue uses up. -/
def handed : Wait → Memory → List Event
  | .reply channel accepts, m =>
    ((Memory.extract? (fun r => r.channel == channel && accepts r) m.replies).map fun (r, _) => .reply r).toList
  | .reaction message accepts, m => (Memory.handed message.id accepts m.queued).map .reaction

section

variable {channel : ChannelId} {message : Message} {replies : List Message} {queued : List QueuedReaction}

theorem not_gets_reply {accepts : Message → Bool}
    (refused : ∀ r ∈ replies, (r.channel == channel && accepts r) = false) :
    ∀ x ∈ replies.map .reply ++ queued.map .reaction, ∀ found, ¬ (reply channel accepts).Gets x found := by
  rintro _ member _ (⟨here, admits⟩ | _)
  rcases List.mem_append.mp member with within | other
  · obtain ⟨r, within, same⟩ := List.mem_map.mp within
    cases same
    have no := refused _ within
    rw [here, admits, beq_self_eq_true] at no
    cases no
  · obtain ⟨_, _, differs⟩ := List.mem_map.mp other
    cases differs

theorem not_gets_reaction {accepts : Reaction → Bool}
    (refused : ∀ q ∈ queued, q.isFor message.id = true → accepts (q.seenOn message.id) = false) :
    ∀ x ∈ replies.map .reply ++ queued.map .reaction, ∀ found, ¬ (reaction message accepts).Gets x found := by
  rintro _ member _ (_ | ⟨mine, admits⟩)
  rcases List.mem_append.mp member with other | within
  · obtain ⟨_, _, differs⟩ := List.mem_map.mp other
    cases differs
  · obtain ⟨q, within, same⟩ := List.mem_map.mp within
    cases same
    rw [refused _ within mine] at admits
    cases admits

end

variable {wait : Wait} {m after : Memory} {channel : ChannelId} {message : Message}

/-- A look for a reply finds none, and changes nothing, or it takes the oldest that is wanted. -/
theorem take_reply_cases {accepts : Message → Bool} {found? : Option Found}
    (took : (reply channel accepts).take m = (found?, after)) :
    (found? = none ∧ after = m ∧ (reply channel accepts).handed m = [] ∧
      ∀ r ∈ m.replies, (r.channel == channel && accepts r) = false) ∨
    ∃ r front back, found? = some (.reply r) ∧ (reply channel accepts).handed m = [.reply r] ∧
      m.replies = front ++ r :: back ∧ after.replies = front ++ back ∧ after.queued = m.queued ∧
      r.channel = channel ∧ accepts r = true ∧ ∀ x ∈ front, (x.channel == channel && accepts x) = false := by
  rw [take, Memory.takeReply] at took
  rw [handed]
  cases look : Memory.extract? (fun r => r.channel == channel && accepts r) m.replies with
  | none =>
    rw [look] at took
    cases took
    exact .inl ⟨rfl, rfl, rfl, Memory.extract?_eq_none_iff.mp look⟩
  | some entry =>
    obtain ⟨r, left⟩ := entry
    rw [look] at took
    cases took
    obtain ⟨front, back, split, rfl, accepted, older⟩ := Memory.split_of_extract? look
    obtain ⟨here, admits⟩ := Bool.and_eq_true_iff.mp accepted
    exact .inr ⟨r, front, back, rfl, rfl, split, rfl, rfl, beq_iff_eq.mp here, admits, older⟩

/-- The oldest event that may end the wait ends it. All other events that are used up have been rejected. -/
theorem split_of_take {found : Found} (took : wait.take m = (some found, after)) :
    ∃ rejected e front back, wait.handed m = rejected ++ [e] ∧ (∀ r ∈ rejected, wait.Rejects r) ∧
      m.events = front ++ e :: back ∧ (∀ x ∈ front, ∀ found, ¬ wait.Gets x found) ∧ wait.Gets e found := by
  cases wait with
  | reply channel accepts =>
    rcases take_reply_cases took with ⟨none, _⟩ | ⟨r, front, back, same, gone, split, _, _, here, admits, older⟩
    · cases none
    · cases same
      refine ⟨[], .reply r, front.map .reply, back.map .reply ++ m.queued.map .reaction, gone,
        fun _ member => (nomatch member), ?_,
        fun x member => not_gets_reply older x (List.mem_append_left ([].map .reaction) member), .reply here admits⟩
      rw [Memory.events, split, List.map_append, List.map_cons, List.append_assoc, List.cons_append]
  | reaction message accepts =>
    obtain ⟨reaction, look, same⟩ := Option.map_eq_some_iff.mp (congrArg Prod.fst took)
    obtain ⟨rejected, q, front, back, gone, each, split, older, mine, admits, rfl⟩ := Memory.split_of_offer look
    cases same
    refine ⟨rejected.map .reaction, .reaction q, m.replies.map .reply ++ front.map .reaction,
      back.map .reaction, ?_, fun r member => ?_, ?_, not_gets_reaction older, .reaction mine admits⟩
    · rw [handed, gone, List.map_append]
      rfl
    · obtain ⟨x, within, rfl⟩ := List.mem_map.mp member
      exact .reaction (each x within).1 (each x within).2
    · rw [Memory.events, split, List.map_append, List.map_cons, List.append_assoc]

theorem offer_of_take {accepts : Reaction → Bool} (took : (reaction message accepts).take m = (none, after)) :
    (Memory.offer message.id accepts m.queued).1 = none :=
  Option.map_eq_none_iff.mp (congrArg Prod.fst took)

/-- A look in vain uses up only what the wait rejects, and it is in vain because nothing may end the wait. -/
theorem rejected_of_take (took : wait.take m = (none, after)) :
    (∀ r ∈ wait.handed m, wait.Rejects r) ∧ ∀ x ∈ m.events, ∀ found, ¬ wait.Gets x found := by
  cases wait with
  | reply channel accepts =>
    rcases take_reply_cases took with ⟨_, _, nothing, refused⟩ | ⟨_, _, _, found, _⟩
    · rw [nothing]
      exact ⟨List.forall_mem_nil _, not_gets_reply refused⟩
    · cases found
  | reaction message accepts =>
    obtain ⟨gone, others⟩ := Memory.rejected_of_offer (offer_of_take took)
    refine ⟨fun r member => ?_, not_gets_reaction others⟩
    obtain ⟨x, within, rfl⟩ := List.mem_map.mp member
    exact .reaction (gone x within).1 (gone x within).2

/-- A look at the queue takes nothing out of it but what is used up, and puts nothing into it. -/
theorem perm_of_take {found? : Option Found} (took : wait.take m = (found?, after)) :
    m.events.Perm (wait.handed m ++ after.events) := by
  cases wait with
  | reply channel accepts =>
    rcases take_reply_cases took with ⟨_, rfl, nothing, _⟩ | ⟨r, front, back, _, gone, split, left, same, _⟩
    · rw [nothing]
      exact .refl _
    · rw [gone, Memory.events, Memory.events, split, left, same, List.map_append, List.map_append, List.map_cons,
        List.append_assoc, List.append_assoc]
      exact List.perm_middle
  | reaction message accepts =>
    cases took
    have inner : (m.queued.map Event.reaction).Perm ((Memory.handed message.id accepts m.queued).map .reaction ++
        (Memory.offer message.id accepts m.queued).2.map .reaction) := by
      rw [← List.map_append]
      exact Memory.perm_offer.map _
    exact (inner.append_left _).trans (List.perm_append_comm_assoc ..)

theorem sublist_of_take {found? : Option Found} (took : wait.take m = (found?, after)) :
    after.replies.Sublist m.replies ∧ after.queued.Sublist m.queued := by
  cases wait with
  | reply channel accepts =>
    rcases take_reply_cases took with ⟨_, rfl, _⟩ | ⟨r, front, back, _, _, split, left, same, _⟩
    · exact ⟨.refl _, .refl _⟩
    · rw [split, left, same]
      exact ⟨(List.sublist_cons_self r back).append_left front, .refl _⟩
  | reaction message accepts =>
    cases took
    exact ⟨.refl _, Memory.offer_sublist⟩

/-- Nothing in the queue is for this wait. There is nothing to get, and nothing to reject. -/
def Idle (wait : Wait) (m : Memory) : Prop := ∀ e ∈ m.events, (∀ found, ¬ wait.Gets e found) ∧ ¬ wait.Rejects e

theorem Idle.of_subset (idle : wait.Idle m) (fewer : after.events ⊆ m.events) : wait.Idle after :=
  fun e member => idle e (fewer member)

theorem subset_of_take {found? : Option Found} (took : wait.take m = (found?, after)) : after.events ⊆ m.events :=
  fun _ member => (perm_of_take took).mem_iff.mpr (List.mem_append_right _ member)

/-- After a look in vain, nothing is left for the wait. -/
theorem idle_of_take (took : wait.take m = (none, after)) : wait.Idle after := by
  intro e member
  refine ⟨(rejected_of_take took).2 e (subset_of_take took member), fun rejects => ?_⟩
  obtain ⟨message, accepts, q, rfl, rfl, mine, _⟩ := rejects.exists_reaction
  have nothing := offer_of_take took
  obtain rfl : _ = after := congrArg Prod.snd took
  rcases List.mem_append.mp member with other | left
  · obtain ⟨_, _, differs⟩ := List.mem_map.mp other
    cases differs
  · obtain ⟨_, within, same⟩ := List.mem_map.mp left
    cases same
    rw [Memory.isFor_eq_false_of_offer nothing q within] at mine
    cases mine

/-- While nothing is for the wait, a look changes nothing. -/
theorem Idle.take_eq (idle : wait.Idle m) : wait.take m = (none, m) := by
  cases wait with
  | reply channel accepts =>
    have refused : Memory.extract? (fun r => r.channel == channel && accepts r) m.replies = none := by
      refine Memory.extract?_eq_none_iff.mpr fun r member => Bool.eq_false_iff.mpr fun accepted => ?_
      obtain ⟨here, admits⟩ := Bool.and_eq_true_iff.mp accepted
      have among : Event.reply r ∈ m.events := List.mem_append_left _ (List.mem_map_of_mem member)
      exact (idle _ among).1 _ (.reply (beq_iff_eq.mp here) admits)
    rw [take, Memory.takeReply, refused]
    rfl
  | reaction message accepts =>
    have others : ∀ q ∈ m.queued, q.isFor message.id = false := by
      refine fun q member => Bool.eq_false_iff.mpr fun mine => ?_
      have among : Event.reaction q ∈ m.events := List.mem_append_right _ (List.mem_map_of_mem member)
      cases admits : accepts (q.seenOn message.id) with
      | true => exact (idle _ among).1 _ (.reaction mine admits)
      | false => exact (idle _ among).2 (.reaction mine admits)
    rw [take, Memory.takeReaction, Memory.offer_of_isFor_eq_false others]
    rfl

end Wait

end ChatCommands
