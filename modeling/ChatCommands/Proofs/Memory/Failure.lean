import ChatCommands.Proofs.Memory.Answers

namespace ChatCommands.Memory

variable {β : Type} {m after : Memory} {id : MessageId}

/-- The same platform. It does not matter in which order channels were marked direct, or how often. -/
structure Same (m after : Memory) : Prop where
  direct : ∀ channel, channel ∈ after.direct ↔ channel ∈ m.direct
  others : after = { m with direct := after.direct }

theorem same_markDirect_iff {channel : ChannelId} : m.Same (m.markDirect channel) ↔ channel ∈ m.direct := by
  constructor
  · exact fun same => (same.direct channel).mp (List.mem_cons_self ..)
  · refine fun known => ⟨fun other => ?_, rfl⟩
    rw [markDirect, List.mem_cons]
    exact ⟨fun either => either.elim (· ▸ known) fun old => old, .inr⟩

/-- An operation that changes nothing when it fails. -/
def Spares (m : Memory) (operation : Except ChatError β × Memory) : Prop :=
  ∀ e, operation.1 = .error e → operation.2 = m

theorem spares_post {channel : ChannelId} {content : String} : m.Spares (m.post id channel content) := by
  unfold post
  split
  · exact fun _ _ => rfl
  · exact nofun

theorem spares_edit {message : Message} {content : String} : m.Spares (m.edit message content) := by
  unfold edit
  split
  · exact fun _ _ => rfl
  · exact nofun

theorem spares_delete {message : Message} : m.Spares (m.delete message) := by
  unfold delete
  split
  · exact fun _ _ => rfl
  · exact nofun

theorem Spares.withReactions {message : Message} {operation : Except ChatError β × Memory}
    (spares : m.Spares operation) : m.Spares (m.withReactions message operation) := by
  unfold Memory.withReactions
  split
  · exact fun _ _ => rfl
  · exact spares

theorem spares_setReactions {message : Message} {emojis : List String} :
    m.Spares (m.setReactions message emojis) := by
  refine .withReactions ?_
  split
  · exact fun _ _ => rfl
  · exact nofun

/-- Every call but that for a direct message refuses before it changes anything. -/
theorem spares_respond {call : ChatCall} (other : ∀ user content, call ≠ .sendDirect user content) :
    m.Spares (m.respond id call) := by
  cases call with
  | send => exact spares_post
  | sendDirect user content => exact absurd rfl (other user content)
  | edit => exact spares_edit
  | delete => exact spares_delete
  | clearReactions | removeReaction => exact .withReactions nofun
  | setReactions => exact spares_setReactions
  | awaitReply | awaitReaction | isDirect | isBot => exact nofun

/-- A call that fails leaves the platform as it is, unless it was for a direct message: the channel of the user is
marked direct before the message is refused. So nothing has changed just when that channel had been direct before. -/
theorem failed_call_leaves_iff {call : ChatCall} {e : ChatError} (failed : m.respond id call = (.error e, after)) :
    (after = m ∨ ∃ user content, call = .sendDirect user content ∧ after = m.markDirect (directChannel user)) ∧
    (m.Same after ↔ ∀ user content, call = .sendDirect user content → directChannel user ∈ m.direct) := by
  by_cases toUser : ∃ user content, call = .sendDirect user content
  · obtain ⟨user, content, rfl⟩ := toUser
    have spares : (m.markDirect (directChannel user)).Spares (m.respond id (.sendDirect user content)) := spares_post
    rw [failed] at spares
    obtain rfl : after = m.markDirect (directChannel user) := spares e rfl
    refine ⟨.inr ⟨user, content, rfl, rfl⟩, same_markDirect_iff.trans ⟨?_, fun known => known user content rfl⟩⟩
    rintro known _ _ ⟨⟩
    exact known
  · have spares : m.Spares (m.respond id call) :=
      spares_respond fun user content same => toUser ⟨user, content, same⟩
    rw [failed] at spares
    obtain rfl : after = m := spares e rfl
    refine ⟨.inl rfl, fun _ user content same => absurd ⟨user, content, same⟩ toUser, fun _ => ⟨fun _ => .rfl, rfl⟩⟩

namespace Sample

/-- A platform that delivers nothing to user `7`. -/
def walled : Memory := (new "0").failDeliveries "dm-7"

end Sample

/-- A direct message is refused twice. The first time its channel becomes direct, the second time nothing changes. -/
theorem failed_call_leaves_iff_twice :
    ∃ cause marked again, Sample.walled.respond "a" (.sendDirect "7" "hi") = (.error cause, marked) ∧
      marked.respond "b" (.sendDirect "7" "hi") = (.error cause, again) ∧
      ¬ Sample.walled.Same marked ∧ marked.Same again := by
  have first : Sample.walled.respond "a" (.sendDirect "7" "hi") =
    (.error (.delivery "dm-7" "channel rejected the message"), Sample.walled.markDirect "dm-7") := rfl
  have second : (Sample.walled.markDirect "dm-7").respond "b" (.sendDirect "7" "hi") =
    (.error (.delivery "dm-7" "channel rejected the message"),
      (Sample.walled.markDirect "dm-7").markDirect "dm-7") := rfl
  refine ⟨_, _, _, first, second, fun same => ?_, (failed_call_leaves_iff second).2.mpr ?_⟩
  · cases (failed_call_leaves_iff first).2.mp same "7" "hi" rfl
  · rintro user content ⟨⟩
    exact List.mem_cons_self ..

/-- The message is refused, and the channel is a direct one from then on. -/
theorem refused_direct_message_marks :
    Sample.walled.respond "a" (.sendDirect "7" "hi") =
      (.error (.delivery "dm-7" "channel rejected the message"), Sample.walled.markDirect "dm-7") ∧
    ¬ Sample.walled.Same (Sample.walled.markDirect "dm-7") := by
  refine ⟨rfl, fun same => ?_⟩
  cases same_markDirect_iff.mp same

end ChatCommands.Memory
