import Mathlib.Data.List.Count
import ChatCommands.Proofs.Chat.Entries
import ChatCommands.Proofs.Memory.Operations

namespace ChatCommands.Memory

/-- The messages that were sent, as they were sent. -/
def postedIn (bot : UserId) (history : List Event) : List Message := history.filterMap (Event.posted bot)

/-- The messages that were sent or queued. -/
def broughtIn (bot : UserId) (history : List Event) : List Message := history.filterMap (Event.brought bot)

/-- The identifiers that messages came with. -/
def broughtIds (bot : UserId) (history : List Event) : List MessageId := (broughtIn bot history).map (·.id)

/-- A message with the content that was put in last. -/
def asRewritten (history : List Event) (message : Message) : Message :=
  { message with content := (history.filterMap (Event.rewritten message.id)).getLast?.getD message.content }

def IsLive (m : Memory) (id : MessageId) : Prop := (m.message? id).isSome

/-- In how many places the platform has a message of this identifier: among the replies that wait, among the live
messages, and among those deleted. -/
def places (m : Memory) (id : MessageId) : Nat :=
  (m.replies.map (·.id)).count id + (m.message? id).isSome.toNat + m.deleted.count id

/-- What holds of the platform after a history of operations. -/
structure Ledger (bot : UserId) (history : List Event) (m : Memory) : Prop where
  botUser : m.botUser = bot
  placed : ∀ id, m.places id = (broughtIds bot history).count id
  sent : m.sent = postedIn bot history
  kept : ∀ message ∈ m.sent, m.IsLive message.id ∨ message.id ∈ m.deleted
  waiting : ∀ reply ∈ m.replies, reply ∈ broughtIn bot history
  stands : ∀ {id message}, m.message? id = some message →
    ∃ first ∈ broughtIn bot history, first.id = id ∧ message = asRewritten history first
  rewritten : ∀ {id}, history.filterMap (Event.rewritten id) ≠ [] → m.IsLive id ∨ id ∈ m.deleted
  reacted : ∀ {id emojis}, m.reactions.lookup id = some emojis → m.IsLive id ∧ emojis.Nodup

variable {bot : UserId} {history : List Event} {m after : Memory} {e : Event} {id : MessageId} {message : Message}

theorem ledger_new (bot : UserId) : Ledger bot [] (new bot) where
  botUser := rfl
  placed _ := rfl
  sent := rfl
  kept := nofun
  waiting := nofun
  stands := nofun
  rewritten := nofun
  reacted := nofun

theorem filterMap_concat {α β : Type} (f : α → Option β) (xs : List α) (x : α) :
    (xs ++ [x]).filterMap f = xs.filterMap f ++ (f x).toList := by
  rw [List.filterMap_append, List.filterMap_cons]
  cases f x <;> rfl

theorem broughtIn_concat : broughtIn bot (history ++ [e]) = broughtIn bot history ++ (e.brought bot).toList :=
  filterMap_concat _ _ _

theorem mem_broughtIn_concat (known : message ∈ broughtIn bot history) : message ∈ broughtIn bot (history ++ [e]) := by
  rw [broughtIn_concat]
  exact List.mem_append_left _ known

theorem count_broughtIds_concat : (broughtIds bot (history ++ [e])).count id =
    (broughtIds bot history).count id + ((e.brought bot).toList.map (·.id)).count id := by
  rw [broughtIds, broughtIn_concat, List.map_append, List.count_append, broughtIds]

theorem fresh_of_append {more : List Event} (fresh : (broughtIds bot (history ++ more)).Nodup) :
    (broughtIds bot history).Nodup := by
  rw [broughtIds, broughtIn, List.filterMap_append, List.map_append] at fresh
  exact List.Nodup.of_append_left fresh

theorem asRewritten_concat_of_none (kept : e.rewritten message.id = none) :
    asRewritten (history ++ [e]) message = asRewritten history message := by
  rw [asRewritten, filterMap_concat, kept, Option.toList_none, List.append_nil, asRewritten]

theorem asRewritten_concat_of_some {content : String} (put : e.rewritten message.id = some content) :
    asRewritten (history ++ [e]) message = { message with content } := by
  rw [asRewritten, filterMap_concat, put, Option.toList_some, List.getLast?_concat, Option.getD_some]

theorem asRewritten_of_nil (kept : history.filterMap (Event.rewritten message.id) = []) :
    asRewritten history message = message := by
  rw [asRewritten, kept]
  rfl

theorem brought_of_posted {message : Message} (posted : e.posted bot = some message) :
    e.brought bot = some message := by
  obtain ⟨op, fault?⟩ := e
  cases op with
  | pushReply => cases posted
  | _ => exact posted

theorem posted_of_brought_none (silent : e.brought bot = none) : e.posted bot = none := by
  obtain ⟨op, fault?⟩ := e
  cases op with
  | pushReply => rfl
  | _ => exact silent

theorem places_eq_zero : m.places id = 0 ↔ id ∉ m.replies.map (·.id) ∧ ¬ m.IsLive id ∧ id ∉ m.deleted := by
  rw [places, Nat.add_eq_zero_iff, Nat.add_eq_zero_iff, List.count_eq_zero, List.count_eq_zero, Bool.toNat_eq_zero,
    IsLive, Bool.not_eq_true, and_assoc]

theorem isLive_setEntry {id other : MessageId} (live : m.IsLive id) :
    ((setEntry other message m.live).lookup id).isSome :=
  isSome_lookup_setEntry.mpr (.inr live)

theorem nodup_addEmojis {there more : List String} (distinct : there.Nodup) : (addEmojis there more).Nodup := by
  induction more generalizing there with
  | nil => exact distinct
  | cons emoji rest ih =>
    rw [addEmojis, List.foldl_cons]
    split
    · exact ih distinct
    · rename_i absent
      refine ih (List.nodup_append.mpr ⟨distinct, List.nodup_singleton _, fun other known _ new same => ?_⟩)
      obtain rfl := List.mem_singleton.mp new
      exact absent (List.contains_iff_mem.mpr (same ▸ known))

/-- Each new emoji is put on once, in order of its first occurrence. -/
theorem addEmojis_eq (there more : List String) :
    addEmojis there more = there ++ (more.filter fun emoji => !there.contains emoji).eraseDups := by
  induction more generalizing there with
  | nil => exact (List.append_nil there).symm
  | cons emoji rest ih =>
    rw [addEmojis, List.foldl_cons]
    by_cases known : there.contains emoji = true
    · rw [if_pos known, List.filter_cons_of_neg (by simpa using known)]
      exact ih there
    · rw [if_neg known, List.filter_cons_of_pos (by simpa using known), List.eraseDups_cons, List.filter_filter]
      have fresh : ∀ other, (!(there ++ [emoji]).contains other) = (!other == emoji && !there.contains other) := by
        intro other
        by_cases same : other = emoji <;> simp [same]
      refine (ih (there ++ [emoji])).trans ?_
      rw [List.append_assoc, List.singleton_append]
      simp only [fresh]

namespace Ledger

theorem of_same (ledger : Ledger bot history m) (same : m.SameRecords after) : Ledger bot history after := by
  obtain ⟨_, _, _, _, _, _, _, _, _, _, _, _⟩ := after
  obtain ⟨rfl, rfl, rfl, rfl, rfl, rfl⟩ := same
  exact ⟨ledger.botUser, ledger.placed, ledger.sent, ledger.kept, ledger.waiting, ledger.stands, ledger.rewritten,
    ledger.reacted⟩

theorem places_le (ledger : Ledger bot history m) (fresh : (broughtIds bot history).Nodup) (id : MessageId) :
    m.places id ≤ 1 :=
  ledger.placed id ▸ List.nodup_iff_count_le_one.mp fresh id

theorem unwritten (ledger : Ledger bot history m) (dead : ¬ m.IsLive id) (undeleted : id ∉ m.deleted) :
    history.filterMap (Event.rewritten id) = [] := by
  by_contra written
  rcases ledger.rewritten written with live | deleted
  · exact dead live
  · exact undeleted deleted

theorem stands_concat (ledger : Ledger bot history m) (kept : ∀ id, e.rewritten id = none)
    (live : m.message? id = some message) :
    ∃ first ∈ broughtIn bot (history ++ [e]), first.id = id ∧ message = asRewritten (history ++ [e]) first := by
  obtain ⟨first, known, named, same⟩ := ledger.stands live
  exact ⟨first, mem_broughtIn_concat known, named, same.trans (asRewritten_concat_of_none (kept _)).symm⟩

theorem rewritten_concat (ledger : Ledger bot history m) (kept : ∀ id, e.rewritten id = none)
    (written : (history ++ [e]).filterMap (Event.rewritten id) ≠ []) : m.IsLive id ∨ id ∈ m.deleted := by
  rw [filterMap_concat, kept, Option.toList_none, List.append_nil] at written
  exact ledger.rewritten written

/-- What is put on record without a message changes nothing else. -/
theorem nothing (ledger : Ledger bot history m) (silent : e.brought bot = none)
    (kept : ∀ id, e.rewritten id = none) : Ledger bot (history ++ [e]) m where
  botUser := ledger.botUser
  placed id := by
    rw [count_broughtIds_concat, silent]
    exact ledger.placed id
  sent := by
    rw [postedIn, filterMap_concat, posted_of_brought_none silent]
    exact ledger.sent.trans (List.append_nil _).symm
  kept := ledger.kept
  waiting reply queued := mem_broughtIn_concat (ledger.waiting reply queued)
  stands := ledger.stands_concat kept
  rewritten := ledger.rewritten_concat kept
  reacted := ledger.reacted

/-- A new message is live from when it is sent. -/
theorem post (ledger : Ledger bot history m) (fresh : (broughtIds bot (history ++ [e])).Nodup)
    (posted : e.posted bot = some message) (kept : ∀ id, e.rewritten id = none) :
    Ledger bot (history ++ [e])
      { m with live := setEntry message.id message m.live, sent := m.sent ++ [message] } := by
  have brought := brought_of_posted posted
  have absent : m.places message.id = 0 := by
    have once := List.nodup_iff_count_le_one.mp fresh message.id
    rw [count_broughtIds_concat, brought, ← ledger.placed] at once
    simp only [Option.toList_some, List.map_cons, List.map_nil, List.count_singleton_self] at once
    omega
  obtain ⟨_, dead, undeleted⟩ := places_eq_zero.mp absent
  exact {
    botUser := ledger.botUser
    placed := by
      intro id
      have oneMore := count_setEntry (Option.not_isSome_iff_eq_none.mp dead) message id
      rw [count_broughtIds_concat, brought, ← ledger.placed id]
      simp only [places, message?, oneMore, Option.toList_some, List.map_cons, List.map_nil]
      omega
    sent := by rw [postedIn, filterMap_concat, posted, ledger.sent]; rfl
    kept := by
      intro other member
      rcases List.mem_append.mp member with old | new
      · exact (ledger.kept other old).imp_left isLive_setEntry
      · obtain rfl := List.mem_singleton.mp new
        exact .inl (isSome_lookup_setEntry.mpr (.inl rfl))
    waiting := fun reply queued => mem_broughtIn_concat (ledger.waiting reply queued)
    stands := by
      intro id found live
      rw [message?, lookup_setEntry] at live
      split at live
      · rename_i same
        cases live
        refine ⟨message, by simp [broughtIn_concat, brought], same.symm, ?_⟩
        rw [asRewritten_concat_of_none (kept _), asRewritten_of_nil (ledger.unwritten dead undeleted)]
      · exact ledger.stands_concat kept live
    rewritten := fun written => (ledger.rewritten_concat kept written).imp_left isLive_setEntry
    reacted := fun found => (ledger.reacted found).imp_left isLive_setEntry }

theorem push {reply : Message} (ledger : Ledger bot history m) :
    Ledger bot (history ++ [(.pushReply reply, none)]) { m with replies := m.replies ++ [reply] } where
  botUser := ledger.botUser
  placed id := by
    rw [count_broughtIds_concat, ← ledger.placed id]
    simp only [places, message?, Event.brought, List.map_append, List.count_append, Option.toList_some, List.map_cons,
      List.map_nil]
    omega
  sent := by
    rw [postedIn, filterMap_concat, ledger.sent]
    exact (List.append_nil _).symm
  kept := ledger.kept
  waiting other queued := by
    rcases List.mem_append.mp queued with old | new
    · exact mem_broughtIn_concat (ledger.waiting other old)
    · rw [broughtIn_concat]
      exact List.mem_append_right _ new
  stands := ledger.stands_concat fun _ => rfl
  rewritten := ledger.rewritten_concat fun _ => rfl
  reacted := ledger.reacted

/-- A reply that is taken is live from then on, and had no place but in the queue. -/
theorem take {reply : Message} {front back : List Message} (ledger : Ledger bot history m)
    (fresh : (broughtIds bot history).Nodup) (queue : m.replies = front ++ reply :: back) :
    Ledger bot history { m with replies := front ++ back, live := setEntry reply.id reply m.live } := by
  have once := ledger.places_le fresh reply.id
  have queued : 0 < (m.replies.map (·.id)).count reply.id := by
    rw [queue, List.count_pos_iff]
    exact List.mem_map_of_mem (List.mem_append_right _ (List.mem_cons_self ..))
  have dead : ¬ m.IsLive reply.id := by
    intro live
    rw [IsLive] at live
    simp only [places, live, Bool.toNat_true] at once
    omega
  have undeleted : reply.id ∉ m.deleted := by
    intro member
    have counted := List.count_pos_iff.mpr member
    simp only [places] at once
    omega
  exact {
    botUser := ledger.botUser
    placed := by
      intro id
      have oneMore := count_setEntry (Option.not_isSome_iff_eq_none.mp dead) reply id
      rw [← ledger.placed id]
      simp only [places, message?, oneMore, queue, List.map_append, List.map_cons, List.count_append,
        List.count_cons, List.count_nil]
      omega
    sent := ledger.sent
    kept := fun other member => (ledger.kept other member).imp_left isLive_setEntry
    waiting := by
      intro other member
      refine ledger.waiting other (queue ▸ ?_)
      rcases List.mem_append.mp member with before | behind
      · exact List.mem_append_left _ before
      · exact List.mem_append_right _ (List.mem_cons_of_mem _ behind)
    stands := by
      intro id found live
      rw [message?, lookup_setEntry] at live
      split at live
      · rename_i same
        cases live
        have known := ledger.waiting reply (by rw [queue]; exact List.mem_append_right _ (List.mem_cons_self ..))
        exact ⟨reply, known, same.symm, (asRewritten_of_nil (ledger.unwritten dead undeleted)).symm⟩
      · exact ledger.stands live
    rewritten := fun written => (ledger.rewritten written).imp_left isLive_setEntry
    reacted := fun found => (ledger.reacted found).imp_left isLive_setEntry }

theorem edit {content : String} {stored : Message} (ledger : Ledger bot history m)
    (found : m.message? message.id = some stored) :
    Ledger bot (history ++ [(.edit message content, none)])
      { m with live := setEntry message.id { stored with content } m.live } where
  botUser := ledger.botUser
  placed id := by
    rw [count_broughtIds_concat, ← ledger.placed id]
    rw [message?] at found
    simp only [places, message?, lookup_setEntry]
    by_cases same : id = message.id
    · subst same
      rw [if_pos rfl, found]
      rfl
    · rw [if_neg same]
      rfl
  sent := by
    rw [postedIn, filterMap_concat, ledger.sent]
    exact (List.append_nil _).symm
  kept := fun other member => (ledger.kept other member).imp_left isLive_setEntry
  waiting reply queued := mem_broughtIn_concat (ledger.waiting reply queued)
  stands := by
    intro id found' live
    rw [message?, lookup_setEntry] at live
    split at live
    · rename_i same
      cases live
      obtain ⟨first, known, named, standing⟩ := ledger.stands found
      refine ⟨first, mem_broughtIn_concat known, named.trans same.symm, ?_⟩
      have put : Event.rewritten first.id (.edit message content, none) = some content := if_pos named.symm
      rw [asRewritten_concat_of_some put, standing]
      rfl
    · rename_i differ
      obtain ⟨first, known, named, standing⟩ := ledger.stands live
      refine ⟨first, mem_broughtIn_concat known, named, ?_⟩
      have kept : Event.rewritten first.id (.edit message content, none) = none :=
        if_neg fun same => differ (named.symm.trans same.symm)
      rw [asRewritten_concat_of_none kept, standing]
  rewritten := by
    intro id written
    by_cases same : id = message.id
    · exact .inl (isSome_lookup_setEntry.mpr (.inl same))
    · have kept : Event.rewritten id (.edit message content, none) = none := if_neg (Ne.symm same)
      rw [filterMap_concat, kept, Option.toList_none, List.append_nil] at written
      exact (ledger.rewritten written).imp_left isLive_setEntry
  reacted := fun found => (ledger.reacted found).imp_left isLive_setEntry

theorem delete {stored : Message} (ledger : Ledger bot history m) (found : m.message? message.id = some stored) :
    Ledger bot history
      { m with live := eraseEntry message.id m.live, reactions := eraseEntry message.id m.reactions,
               deleted := m.deleted ++ [message.id] } := by
  have gone {id : MessageId} (kept : m.IsLive id ∨ id ∈ m.deleted) :
      ((eraseEntry message.id m.live).lookup id).isSome ∨ id ∈ m.deleted ++ [message.id] := by
    by_cases same : id = message.id
    · exact .inr (List.mem_append_right _ (List.mem_singleton.mpr same))
    · rcases kept with live | deleted
      · exact .inl (isSome_lookup_eraseEntry.mpr ⟨same, live⟩)
      · exact .inr (List.mem_append_left _ deleted)
  exact {
    botUser := ledger.botUser
    placed := by
      intro id
      have oneLess := count_eraseEntry found id
      rw [← ledger.placed id]
      simp only [places, message?, oneLess, List.count_append]
      omega
    sent := ledger.sent
    kept := fun other member => gone (ledger.kept other member)
    waiting := ledger.waiting
    stands := by
      intro id standing live
      rw [message?, lookup_eraseEntry] at live
      split at live
      · cases live
      · exact ledger.stands live
    rewritten := fun written => gone (ledger.rewritten written)
    reacted := by
      intro id emojis found
      rw [lookup_eraseEntry] at found
      split at found
      · cases found
      · rename_i differ
        exact (ledger.reacted found).imp_left fun live => isSome_lookup_eraseEntry.mpr ⟨differ, live⟩ }

theorem withReactions {reactions : List (MessageId × List String)} (ledger : Ledger bot history m)
    (reacted : ∀ {id emojis}, reactions.lookup id = some emojis → m.IsLive id ∧ emojis.Nodup) :
    Ledger bot history { m with reactions } :=
  ⟨ledger.botUser, ledger.placed, ledger.sent, ledger.kept, ledger.waiting, ledger.stands, ledger.rewritten, reacted⟩

theorem clear (ledger : Ledger bot history m) (id : MessageId) :
    Ledger bot history { m with reactions := eraseEntry id m.reactions } := by
  refine ledger.withReactions fun found => ?_
  rw [lookup_eraseEntry] at found
  split at found
  · cases found
  · exact ledger.reacted found

theorem react {emojis : List String} (ledger : Ledger bot history m) (live : m.IsLive id) :
    Ledger bot history { m with reactions := setEntry id (addEmojis (m.reactionsOn id) emojis) m.reactions } := by
  have there : (m.reactionsOn id).Nodup := by
    rw [reactionsOn]
    cases found : m.reactions.lookup id with
    | none => exact .nil
    | some emojis => exact (ledger.reacted found).2
  refine ledger.withReactions fun found => ?_
  rw [lookup_setEntry] at found
  split at found
  · rename_i same
    cases found
    exact ⟨same ▸ live, nodup_addEmojis there⟩
  · exact ledger.reacted found

/-- Every operation keeps the ledger, as long as messages come with identifiers of their own. -/
theorem step (ledger : Ledger bot history m) (fresh : (broughtIds bot (history ++ [e])).Nodup)
    (effect : Effect m e after) : Ledger bot (history ++ [e]) after := by
  cases effect with
  | nothing silent kept same => exact (ledger.nothing (silent bot) kept).of_same same
  | post posted kept same =>
    rw [ledger.botUser] at posted
    exact (ledger.post fresh posted kept).of_same same
  | push => exact ledger.push
  | take queue => exact (ledger.nothing rfl fun _ => rfl).take fresh queue
  | edit found => exact ledger.edit found
  | delete found => exact (ledger.nothing rfl fun _ => rfl).delete found
  | clear => exact (ledger.nothing rfl fun _ => rfl).clear _
  | react found => exact (ledger.nothing rfl fun _ => rfl).react (by rw [IsLive, found]; rfl)

end Ledger

end ChatCommands.Memory
