import ChatCommands.Proofs.Chat.Timing

namespace ChatCommands

/-- Has nothing to do with the platform, neither now nor later. -/
def Request.OffPlatform : Request → Prop
  | chat _ => False
  | deleteLater _ _ => False
  | _ => True

/-- Leaves nothing to be done later. -/
def Request.Immediate (request : Request) : Prop := ∀ message delay, request ≠ .deleteLater message delay

theorem Request.OffPlatform.immediate {request : Request} (off : request.OffPlatform) : request.Immediate := by
  rintro message delay rfl
  exact off

theorem Request.OffPlatform.timely {request : Request} {now : Nat} (off : request.OffPlatform) : request.Timely now := by
  cases request with
  | chat => exact off.elim
  | _ => trivial

/-- The message that an exchange has put on the platform. -/
def Exchange.posted? (e : Exchange) : Option Message :=
  match e.request, e.answer with
  | .chat (.send _ _), answer => answer.toOption
  | .chat (.sendDirect _ _), answer => answer.toOption
  | _, _ => none

/-- Every message that is put on the platform is given this identifier. -/
def PostedAs (id : MessageId) (log : List Exchange) : Prop :=
  ∀ e ∈ log, ∀ message, e.posted? = some message → message.id = id

namespace Memory

/-- What the platform does at a call that can be made at its time, of which `Request.Timely` tells. A message that is sent
is given the identifier, and a wait does not wait here. -/
def respond (m : Memory) (id : MessageId) : (call : ChatCall) → Except ChatError call.Value × Memory
  | .send channel content => m.post id channel content
  | .sendDirect user content => m.postDirect id user content
  | .edit message content => m.edit message content
  | .delete message => m.delete message
  | .awaitReply channel accepts _ => (.ok (m.takeReply channel accepts).1, (m.takeReply channel accepts).2)
  | .clearReactions message => m.clearReactions message
  | .setReactions message emojis => m.setReactions message emojis
  | .awaitReaction message accepts _ => (.ok (m.takeReaction message accepts).1, (m.takeReaction message accepts).2)
  | .removeReaction message emoji user => m.removeReaction message emoji user
  | .isDirect channel => (.ok (m.direct.contains channel), m)
  | .isBot user => (.ok (m.bots.contains user), m)

theorem perform_eq (w : World) (call : ChatCall) :
    w.perform call = w.onMemory fun m => m.respond m.freshId call := by
  cases call <;> rfl

/-- The exchanges of somebody who has the platform for himself, with the platform before and after. As nothing happens
to it from outside, a wait that finds nothing at first is in vain. Whatever is not a call is none of its business, and
neither is the time at which a call is made. -/
inductive Answers : Memory → List Exchange → Memory → Prop
  | nil {m} : Answers m [] m
  | chat {m call log after} (id : MessageId) : Answers (m.respond id call).2 log after →
      Answers m (⟨.chat call, (m.respond id call).1⟩ :: log) after
  | aside {m request answer log after} : request.OffPlatform → Answers m log after →
      Answers m (⟨request, answer⟩ :: log) after

variable {m after : Memory} {log : List Exchange}

theorem answers_chat_iff {call : ChatCall} {answer : Except ChatError call.Value} :
    m.Answers (⟨.chat call, answer⟩ :: log) after ↔
      ∃ id, answer = (m.respond id call).1 ∧ (m.respond id call).2.Answers log after := by
  constructor
  · intro answers
    cases answers with
    | chat id later => exact ⟨id, rfl, later⟩
    | aside off => exact off.elim
  · rintro ⟨id, rfl, later⟩
    exact .chat id later

theorem answers_append_iff {first later : List Exchange} :
    m.Answers (first ++ later) after ↔ ∃ between, m.Answers first between ∧ between.Answers later after := by
  constructor
  · intro answers
    induction first generalizing m with
    | nil => exact ⟨m, .nil, answers⟩
    | cons e rest ih =>
      cases answers with
      | chat id answers =>
        obtain ⟨between, front, back⟩ := ih answers
        exact ⟨between, .chat id front, back⟩
      | aside off answers =>
        obtain ⟨between, front, back⟩ := ih answers
        exact ⟨between, .aside off front, back⟩
  · rintro ⟨between, front, back⟩
    induction front with
    | nil => exact back
    | chat id _ ih => exact .chat id (ih back)
    | aside off _ ih => exact .aside off (ih back)

theorem Answers.eq_of_offPlatform (answers : m.Answers log after) (off : ∀ e ∈ log, e.request.OffPlatform) :
    after = m := by
  induction answers with
  | nil => rfl
  | chat => exact (off _ (List.mem_cons_self ..)).elim
  | aside _ _ ih => exact ih fun e member => off e (List.mem_cons_of_mem _ member)

theorem id_of_post {id : MessageId} {channel : ChannelId} {content : String} {message : Message}
    (sent : (m.post id channel content).1.toOption = some message) : message.id = id := by
  unfold post at sent
  split at sent
  · cases sent
  · cases sent
    rfl

theorem id_of_respond {id : MessageId} {call : ChatCall} {message : Message}
    (posted : Exchange.posted? ⟨.chat call, (m.respond id call).1⟩ = some message) : message.id = id := by
  cases call with
  | send | sendDirect => exact id_of_post posted
  | _ => cases posted

end Memory

namespace Conversation

variable {α β : Type} {m after : Memory} {now : Nat} {log : List Exchange}

/-- A way for a conversation to go from the time `now` on, when nobody else uses the platform. -/
structure RunsOn (c : Conversation α) (m : Memory) (now : Nat) (log : List Exchange) (value : α) (after : Memory) :
    Prop where
  held : c.Held log value
  answered : m.Answers log after
  timely : Timely now log

/-- The conversation comes to a wait that begins so late that no clock can show its end. -/
def Overruns (c : Conversation α) (m : Memory) (now : Nat) : Prop :=
  ∃ log request next between, c.Comes log (ask request next) ∧ m.Answers log between ∧ Timely now log ∧
    ¬ request.Timely (now + durationOf log)

theorem runsOn_done_iff {value result : α} :
    (done value).RunsOn m now log result after ↔ log = [] ∧ result = value ∧ after = m := by
  constructor
  · rintro ⟨_ | _, _ | _, _⟩
    exact ⟨rfl, rfl, rfl⟩
  · rintro ⟨rfl, rfl, rfl⟩
    exact ⟨.done, .nil, .nil⟩

theorem runsOn_chat_iff {call : ChatCall} {next : Except ChatError call.Value → Conversation α} {value : α} :
    (ask (.chat call) next).RunsOn m now log value after ↔
      ∃ id answer between later, m.respond id call = (answer, between) ∧ log = ⟨.chat call, answer⟩ :: later ∧
        Request.Timely now (.chat call) ∧
        (next answer).RunsOn between (now + Exchange.duration ⟨.chat call, answer⟩) later value after := by
  constructor
  · rintro ⟨held, answered, timely⟩
    cases held with
    | ask held =>
      obtain ⟨id, rfl, later⟩ := Memory.answers_chat_iff.mp answered
      cases timely with
      | cons own timely => exact ⟨id, _, _, _, rfl, rfl, own, held, later, timely⟩
  · rintro ⟨id, answer, between, later, look, rfl, own, held, answered, timely⟩
    have answers : m.Answers (⟨.chat call, answer⟩ :: later) after :=
      Memory.answers_chat_iff.mpr ⟨id, by rw [look], by rw [look]; exact answered⟩
    exact ⟨.ask held, answers, .cons own timely⟩

theorem RunsOn.aside {request : Request} {next : request.Answer → Conversation α} {answer : request.Answer} {value : α}
    (off : request.OffPlatform)
    (run : (next answer).RunsOn m (now + Exchange.duration ⟨request, answer⟩) log value after) :
    (ask request next).RunsOn m now (⟨request, answer⟩ :: log) value after :=
  ⟨.ask run.held, .aside off run.answered, .cons off.timely run.timely⟩

theorem runsOn_bind_iff {c : Conversation α} {f : α → Conversation β} {result : β} :
    (c >>= f).RunsOn m now log result after ↔
      ∃ first later value between, log = first ++ later ∧ c.RunsOn m now first value between ∧
        (f value).RunsOn between (now + durationOf first) later result after := by
  constructor
  · rintro ⟨held, answered, timely⟩
    obtain ⟨first, later, value, rfl, front, back⟩ := held_bind_iff.mp held
    obtain ⟨between, before, behind⟩ := Memory.answers_append_iff.mp answered
    obtain ⟨soon, late⟩ := timely_append_iff.mp timely
    exact ⟨first, later, value, between, rfl, ⟨front, before, soon⟩, back, behind, late⟩
  · rintro ⟨first, later, value, between, rfl, ⟨front, before, soon⟩, back, behind, late⟩
    exact ⟨held_bind_iff.mpr ⟨first, later, value, rfl, front, back⟩,
      Memory.answers_append_iff.mpr ⟨between, before, behind⟩, timely_append_iff.mpr ⟨soon, late⟩⟩

theorem Overruns.behind {request : Request} {next : request.Answer → Conversation α} {answer : request.Answer}
    {between : Memory} (answers : ∀ {log after}, between.Answers log after → m.Answers (⟨request, answer⟩ :: log) after)
    (own : request.Timely now) (overruns : (next answer).Overruns between (now + Exchange.duration ⟨request, answer⟩)) :
    (ask request next).Overruns m now := by
  obtain ⟨log, request', next', later, comes, answered, timely, late⟩ := overruns
  refine ⟨⟨request, answer⟩ :: log, request', next', later, .ask comes, answers answered, .cons own timely, ?_⟩
  rwa [durationOf, ← Nat.add_assoc]

theorem Hasty.not_overruns {limit : Nat} {c : Conversation α} (hasty : c.Hasty limit)
    (short : now + limit < World.clockEnd) : ¬ c.Overruns m now := by
  rintro ⟨log, request, next, _, comes, _, _, late⟩
  exact late (hasty.timely short comes)

/-- The platform leaves nobody without an answer who asks in time. The identifiers of messages can be any. -/
theorem exists_runsOn {c : Conversation α} (asks : c.Asks Request.Immediate) (m : Memory) (id : MessageId)
    (inTime : ¬ c.Overruns m now) : ∃ log value after, c.RunsOn m now log value after ∧ PostedAs id log := by
  induction asks generalizing m now with
  | done => exact ⟨[], _, m, ⟨.done, .nil, .nil⟩, List.forall_mem_nil _⟩
  | @ask request next immediate _ ih =>
    have own : request.Timely now := Classical.byContradiction fun late =>
      inTime ⟨[], request, next, m, .start, .nil, .nil, late⟩
    by_cases chats : ∃ call, request = .chat call
    · obtain ⟨call, rfl⟩ := chats
      have spare : ¬ (next (m.respond id call).1).Overruns (m.respond id call).2 _ :=
        fun overruns => inTime (.behind (.chat id) own overruns)
      obtain ⟨log, value, after, run, named⟩ := ih (m.respond id call).1 (m.respond id call).2 spare
      refine ⟨_, value, after, runsOn_chat_iff.mpr ⟨id, _, _, log, rfl, rfl, own, run⟩,
        List.forall_mem_cons.mpr ⟨?_, named⟩⟩
      exact fun message => Memory.id_of_respond
    · have off : request.OffPlatform := by
        cases request with
        | chat call => exact chats ⟨call, rfl⟩
        | deleteLater message delay => exact immediate message delay rfl
        | _ => trivial
      obtain ⟨answer, _⟩ := exists_clear request
      have spare : ¬ (next answer).Overruns m _ := fun overruns => inTime (.behind (.aside off) own overruns)
      obtain ⟨log, value, after, run, named⟩ := ih answer m spare
      refine ⟨_, value, after, run.aside off, List.forall_mem_cons.mpr ⟨?_, named⟩⟩
      intro message posted
      cases request with
      | chat => exact off.elim
      | _ => cases posted

end Conversation

theorem Talk.runsOn_lift_bind_iff {α β ε : Type} {m after : Memory} {now : Nat} {log : List Exchange}
    {c : Conversation α} {next : α → Talk ε β} {result : Except ε β} :
    (ExceptT.lift c >>= next).run.RunsOn m now log result after ↔
      ∃ first later value between, log = first ++ later ∧ c.RunsOn m now first value between ∧
        (next value).run.RunsOn between (now + durationOf first) later result after := by
  rw [ExceptT.run_bind_lift]
  exact Conversation.runsOn_bind_iff

end ChatCommands
