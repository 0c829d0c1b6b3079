import ChatCommands.Proofs.Waiting.Take

namespace ChatCommands.Memory

/-- What can be done with the platform, by the bot and by those who set it up. A message that is sent is given its
identifier, whoever thinks of one. What only reads is left out, and a wait is a take that is tried again. -/
inductive Operation where
  | post (id : MessageId) (channel : ChannelId) (content : String)
  | postDirect (id : MessageId) (user : UserId) (content : String)
  | edit (message : Message) (content : String)
  | delete (message : Message)
  | takeReply (channel : ChannelId) (accepts : Message → Bool)
  | clearReactions (message : Message)
  | setReactions (message : Message) (emojis : List String)
  | takeReaction (message : Message) (accepts : Reaction → Bool)
  | removeReaction (message : Message) (emoji : String) (user : UserId)
  | markDirect (channel : ChannelId)
  | forbidReactions (channel : ChannelId)
  | failDeliveries (channel : ChannelId)
  | registerBot (user : UserId)
  | pushReply (reply : Message)
  | pushReaction (target? : Option MessageId) (emoji : String) (user : UserId)

/-- The error of a result, if it is one, and what is left. -/
def judged {β : Type} (run : Except ChatError β × Memory) : Option ChatError × Memory :=
  match run.1 with
  | .error e => (some e, run.2)
  | .ok _ => (none, run.2)

/-- The error that an operation meets, if any, and the platform after it. -/
def Operation.perform (m : Memory) : Operation → Option ChatError × Memory
  | post id channel content => judged (m.post id channel content)
  | postDirect id user content => judged (m.postDirect id user content)
  | edit message content => judged (m.edit message content)
  | delete message => judged (m.delete message)
  | takeReply channel accepts => (none, (m.takeReply channel accepts).2)
  | clearReactions message => judged (m.clearReactions message)
  | setReactions message emojis => judged (m.setReactions message emojis)
  | takeReaction message accepts => (none, (m.takeReaction message accepts).2)
  | removeReaction message emoji user => judged (m.removeReaction message emoji user)
  | markDirect channel => (none, m.markDirect channel)
  | forbidReactions channel => (none, m.forbidReactions channel)
  | failDeliveries channel => (none, m.failDeliveries channel)
  | registerBot user => (none, m.registerBot user)
  | pushReply reply => (none, m.pushReply reply)
  | pushReaction target? emoji user => (none, m.pushReaction target? emoji user)

/-- An operation, and the error that it met. -/
abbrev Event := Operation × Option ChatError

/-- What becomes of operations one after another, and the platform that they leave. -/
def carryOut (m : Memory) : List Operation → List Event × Memory
  | [] => ([], m)
  | op :: rest =>
    let (fault?, next) := op.perform m
    let (later, after) := carryOut next rest
    ((op, fault?) :: later, after)

namespace Event

/-- The message that was sent by the account `bot`, as it was sent. -/
def posted (bot : UserId) : Event → Option Message
  | (.post id channel content, none) => some ⟨id, channel, bot, true, content⟩
  | (.postDirect id user content, none) => some ⟨id, directChannel user, bot, true, content⟩
  | _ => none

/-- The message that was sent or queued. -/
def brought (bot : UserId) : Event → Option Message
  | (.pushReply reply, none) => some reply
  | e => posted bot e

/-- The content that was put in place of the one that message `id` had. -/
def rewritten (id : MessageId) : Event → Option String
  | (.edit message content, none) => if message.id = id then some content else none
  | _ => none

end Event

/-- The same messages, wherever they are, and the same reactions of the bot. -/
structure SameRecords (m after : Memory) : Prop where
  botUser : after.botUser = m.botUser
  live : after.live = m.live
  sent : after.sent = m.sent
  deleted : after.deleted = m.deleted
  reactions : after.reactions = m.reactions
  replies : after.replies = m.replies

/-- What an operation can do to messages and reactions. Each case says what is put on record with it. -/
inductive Effect (m : Memory) : Event → Memory → Prop
  | nothing {e after} : (∀ bot, e.brought bot = none) → (∀ id, e.rewritten id = none) → m.SameRecords after →
      Effect m e after
  | post {e after message} : e.posted m.botUser = some message → (∀ id, e.rewritten id = none) →
      SameRecords { m with live := setEntry message.id message m.live, sent := m.sent ++ [message] } after →
      Effect m e after
  | push {reply} : Effect m (.pushReply reply, none) { m with replies := m.replies ++ [reply] }
  | take {channel accepts reply front back} : m.replies = front ++ reply :: back →
      Effect m (.takeReply channel accepts, none)
        { m with replies := front ++ back, live := setEntry reply.id reply m.live }
  | edit {message content stored} : m.message? message.id = some stored →
      Effect m (.edit message content, none)
        { m with live := setEntry message.id { stored with content } m.live }
  | delete {message stored} : m.message? message.id = some stored →
      Effect m (.delete message, none)
        { m with live := eraseEntry message.id m.live, reactions := eraseEntry message.id m.reactions,
                 deleted := m.deleted ++ [message.id] }
  | clear {message} :
      Effect m (.clearReactions message, none) { m with reactions := eraseEntry message.id m.reactions }
  | react {message emojis stored} : m.message? message.id = some stored →
      Effect m (.setReactions message emojis, none)
        { m with reactions := setEntry message.id (addEmojis (m.reactionsOn message.id) emojis) m.reactions }

variable {m : Memory} {message : Message}

theorem SameRecords.refl (m : Memory) : m.SameRecords m := ⟨rfl, rfl, rfl, rfl, rfl, rfl⟩

/-- An operation that fails or that is about something else leaves the records alone. -/
theorem Effect.idle {e : Event} (silent : ∀ bot, e.brought bot = none) (unwritten : ∀ id, e.rewritten id = none) :
    Effect m e m :=
  .nothing silent unwritten (.refl m)

/-- Everything that an operation does to messages and reactions is one of these effects. -/
theorem effect_perform (m : Memory) (op : Operation) : Effect m (op, (op.perform m).1) (op.perform m).2 := by
  cases op with
  | post id channel content =>
    rw [Operation.perform, Memory.post]
    split
    · exact .idle (fun _ => rfl) fun _ => rfl
    · exact .post rfl (fun _ => rfl) (.refl _)
  | postDirect id user content =>
    rw [Operation.perform, postDirect, Memory.post]
    split
    · exact .nothing (fun _ => rfl) (fun _ => rfl) ⟨rfl, rfl, rfl, rfl, rfl, rfl⟩
    · exact .post rfl (fun _ => rfl) ⟨rfl, rfl, rfl, rfl, rfl, rfl⟩
  | edit message content =>
    rw [Operation.perform, Memory.edit]
    split
    · exact .idle (fun _ => rfl) fun _ => rfl
    · rename_i found
      exact .edit found
  | delete message =>
    rw [Operation.perform, Memory.delete]
    split
    · exact .idle (fun _ => rfl) fun _ => rfl
    · rename_i found
      exact .delete found
  | takeReply channel accepts =>
    rw [Operation.perform, Memory.takeReply]
    split
    · exact .idle (fun _ => rfl) fun _ => rfl
    · rename_i found
      obtain ⟨front, back, queue, rfl, _⟩ := split_of_extract? found
      exact .take queue
  | clearReactions message =>
    rw [Operation.perform, Memory.clearReactions, withReactions]
    split
    · exact .idle (fun _ => rfl) fun _ => rfl
    · exact .clear
  | setReactions message emojis =>
    rw [Operation.perform, Memory.setReactions, withReactions]
    split
    · exact .idle (fun _ => rfl) fun _ => rfl
    · split
      · exact .idle (fun _ => rfl) fun _ => rfl
      · rename_i found
        exact .react found
  | removeReaction message emoji user =>
    rw [Operation.perform, Memory.removeReaction, withReactions]
    split
    · exact .idle (fun _ => rfl) fun _ => rfl
    · exact .nothing (fun _ => rfl) (fun _ => rfl) ⟨rfl, rfl, rfl, rfl, rfl, rfl⟩
  | pushReply => exact .push
  | takeReaction | markDirect | forbidReactions | failDeliveries | registerBot | pushReaction =>
    exact .nothing (fun _ => rfl) (fun _ => rfl) ⟨rfl, rfl, rfl, rfl, rfl, rfl⟩

end ChatCommands.Memory
