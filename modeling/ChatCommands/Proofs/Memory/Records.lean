import ChatCommands.Proofs.Memory.Ledger

namespace ChatCommands.Memory

variable {bot : UserId} {history : List Event} {m after : Memory} {e : Event} {id : MessageId} {message : Message}

namespace Ledger

/-- So does every run of operations. -/
theorem carryOut {ops : List Operation} (ledger : Ledger bot history m)
    (fresh : (broughtIds bot (history ++ (m.carryOut ops).1)).Nodup) :
    Ledger bot (history ++ (m.carryOut ops).1) (m.carryOut ops).2 := by
  induction ops generalizing history m with
  | nil =>
    rw [Memory.carryOut, List.append_nil]
    exact ledger
  | cons op rest ih =>
    rw [Memory.carryOut, List.append_cons] at fresh ⊢
    exact ih (ledger.step (fresh_of_append fresh) (effect_perform m op)) fresh

/-- A message that was deleted is in no other place. -/
theorem deleted_apart (ledger : Ledger bot history m) (fresh : (broughtIds bot history).Nodup)
    (deleted : id ∈ m.deleted) : ¬ m.IsLive id := by
  intro live
  have once := ledger.places_le fresh id
  have counted := List.count_pos_iff.mpr deleted
  rw [IsLive] at live
  simp only [places, live, Bool.toNat_true] at once
  omega

theorem nodup_deleted (ledger : Ledger bot history m) (fresh : (broughtIds bot history).Nodup) :
    m.deleted.Nodup := by
  refine List.nodup_iff_count_le_one.mpr fun id => ?_
  have once := ledger.places_le fresh id
  rw [places] at once
  omega

theorem stands_sent (ledger : Ledger bot history m) (fresh : (broughtIds bot history).Nodup)
    {first : Message} (sent : first ∈ m.sent) (live : m.message? first.id = some message) :
    message = asRewritten history first := by
  obtain ⟨other, known, named, same⟩ := ledger.stands live
  have brought : first ∈ broughtIn bot history := by
    rw [ledger.sent] at sent
    obtain ⟨e, past, posted⟩ := List.mem_filterMap.mp sent
    exact List.mem_filterMap.mpr ⟨e, past, brought_of_posted posted⟩
  rw [same, List.inj_on_of_nodup_map fresh known brought named]

end Ledger

theorem Effect.deleted (effect : Effect m e after) (gone : id ∈ m.deleted) : id ∈ after.deleted := by
  cases effect with
  | nothing _ _ same | post _ _ same => exact same.deleted ▸ gone
  | delete => exact List.mem_append_left _ gone
  | push | take | edit | clear | react => exact gone

theorem deleted_carryOut (ops : List Operation) (gone : id ∈ m.deleted) : id ∈ (m.carryOut ops).2.deleted := by
  induction ops generalizing m with
  | nil => exact gone
  | cons op rest ih => exact ih ((effect_perform m op).deleted gone)

/-- What is not live cannot be edited, deleted or reacted to. -/
theorem fails_of_dead (dead : ¬ m.IsLive message.id) :
    (∀ content, m.edit message content = (.error (.messageNotFound message.id), m)) ∧
      m.delete message = (.error (.messageNotFound message.id), m) ∧
      ∀ emojis, ∃ cause, m.setReactions message emojis = (.error cause, m) := by
  have missing : m.message? message.id = none := by rwa [IsLive, Option.not_isSome_iff_eq_none] at dead
  refine ⟨fun content => ?_, ?_, fun emojis => ?_⟩
  · rw [edit, missing]
  · rw [delete, missing]
  · rw [setReactions, withReactions, missing]
    split <;> exact ⟨_, rfl⟩

/-- Whatever is done with an empty platform, its records agree with each other and with what was done, as long as
messages come with identifiers of their own. Reactions are on live messages, what was sent is live or deleted, the
sent messages stay as they were sent while the live ones have the content put in last, and what is deleted stays so. -/
theorem records_agree {before later : List Operation} {more : List Event}
    (first : (new bot).carryOut before = (history, m)) (next : m.carryOut later = (more, after))
    (fresh : (broughtIds bot (history ++ more)).Nodup) :
    (∀ id emojis, after.reactions.lookup id = some emojis → after.IsLive id ∧ emojis.Nodup) ∧
    (∀ message ∈ after.sent, (after.IsLive message.id ∨ message.id ∈ after.deleted) ∧
      ¬ (after.IsLive message.id ∧ message.id ∈ after.deleted)) ∧
    after.deleted.Nodup ∧
    after.sent = m.sent ++ postedIn bot more ∧
    (∀ sent ∈ after.sent, ∀ message, after.message? sent.id = some message →
      message = asRewritten (history ++ more) sent) ∧
    ∀ id ∈ m.deleted, id ∈ after.deleted ∧ after.reactions.lookup id = none ∧
      ∀ message : Message, message.id = id →
        (∀ content, after.edit message content = (.error (.messageNotFound id), after)) ∧
        after.delete message = (.error (.messageNotFound id), after) ∧
        ∀ emojis, ∃ cause, after.setReactions message emojis = (.error cause, after) := by
  have middle : Ledger bot history m := by
    have ledger := (ledger_new bot).carryOut (by rw [first]; exact fresh_of_append fresh)
    rwa [first] at ledger
  have final : Ledger bot (history ++ more) after := by
    have ledger := middle.carryOut (by rwa [next])
    rwa [next] at ledger
  refine ⟨fun _ _ => final.reacted, ?_, final.nodup_deleted fresh, ?_, ?_, ?_⟩
  · intro message sent
    exact ⟨final.kept message sent, fun ⟨live, deleted⟩ => final.deleted_apart fresh deleted live⟩
  · rw [final.sent, middle.sent, postedIn, postedIn, postedIn, List.filterMap_append]
  · exact fun _ sent _ live => final.stands_sent fresh sent live
  · intro id gone
    have deleted : id ∈ after.deleted := by
      have kept := deleted_carryOut later gone
      rwa [next] at kept
    have dead := final.deleted_apart fresh deleted
    refine ⟨deleted, ?_, ?_⟩
    · by_contra present
      obtain ⟨emojis, found⟩ := Option.ne_none_iff_exists'.mp present
      exact dead (final.reacted found).1
    · rintro message rfl
      exact fails_of_dead dead

namespace Sample

def note : Message := ⟨"a", "general", "0", true, "one"⟩

def gone : Message := ⟨"b", "general", "0", true, "two"⟩

def before : List Operation :=
  [.post "a" "general" "one", .pushReply ⟨"c", "general", "2", false, "three"⟩, .post "b" "general" "two",
    .setReactions gone ["yes", "yes"], .edit note "uno", .delete gone]

def later : List Operation :=
  [.takeReply "general" fun _ => true, .edit gone "zwei", .setReactions note ["no", "yes", "no"],
    .postDirect "d" "2" "four", .setReactions gone ["yes"]]

end Sample

/-- Two messages of which one is deleted, a reply, and edits and reactions that come too late. -/
theorem records_agree_sample :
    ∃ history m more after, (new "0").carryOut Sample.before = (history, m) ∧
      m.carryOut Sample.later = (more, after) ∧ (broughtIds "0" (history ++ more)).Nodup ∧
      after.reactions.lookup "a" = some ["no", "yes"] ∧ after.IsLive "a" ∧ m.deleted = ["b"] ∧
      after.message? "a" = some { Sample.note with content := "uno" } ∧
      after.sent = m.sent ++ [⟨"d", "dm-2", "0", true, "four"⟩] ∧ after.reactions.lookup "b" = none := by
  have fresh : (broughtIds "0" (((new "0").carryOut Sample.before).1 ++
      (((new "0").carryOut Sample.before).2.carryOut Sample.later).1)).Nodup := by decide +kernel
  obtain ⟨reacted, _, _, sent, _, gone⟩ := records_agree rfl rfl fresh
  have shown : (((new "0").carryOut Sample.before).2.carryOut Sample.later).2.reactions.lookup "a" =
      some ["no", "yes"] := by decide +kernel
  exact ⟨_, _, _, _, rfl, rfl, fresh, shown, (reacted _ _ shown).1, by decide +kernel, by decide +kernel, sent,
    (gone "b" (by decide +kernel)).2.1⟩

end ChatCommands.Memory
