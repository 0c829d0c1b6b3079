import ChatCommands.Chat.Conversation

namespace ChatCommands

/-- A request and the answer that it was given. -/
structure Exchange where
  request : Request
  answer : request.Answer

namespace Conversation

variable {α β γ : Type}

/-- The ways in which a conversation can go, whoever answers: the exchanges in order, and the value. -/
inductive Held : Conversation α → List Exchange → α → Prop
  | done {value} : Held (.done value) [] value
  | ask {request next answer log value} : Held (next answer) log value →
      Held (.ask request next) (⟨request, answer⟩ :: log) value

theorem bind_assoc (c : Conversation α) (f : α → Conversation β) (g : β → Conversation γ) :
    (c.bind f).bind g = c.bind fun value => (f value).bind g := by
  induction c with
  | done value => rfl
  | ask request next ih => exact congrArg (ask request) (funext ih)

theorem bind_done (c : Conversation α) : c.bind done = c := by
  induction c with
  | done value => rfl
  | ask request next ih => exact congrArg (ask request) (funext ih)

instance : LawfulMonad Conversation :=
  LawfulMonad.mk' Conversation (fun c => bind_done c) (fun _ _ => rfl) bind_assoc

theorem held_bind_iff {c : Conversation α} {f : α → Conversation β} {log : List Exchange} {result : β} :
    Held (c.bind f) log result ↔
      ∃ first later value, log = first ++ later ∧ Held c first value ∧ Held (f value) later result := by
  induction c generalizing log with
  | done value =>
    constructor
    · exact fun run => ⟨[], log, value, rfl, .done, run⟩
    · rintro ⟨_, _, _, rfl, run, later⟩
      cases run
      exact later
  | ask request next ih =>
    constructor
    · intro run
      cases run with
      | ask run =>
        obtain ⟨first, later, value, rfl, front, back⟩ := (ih _).mp run
        exact ⟨_ :: first, later, value, rfl, .ask front, back⟩
    · rintro ⟨_, later, value, rfl, front, back⟩
      cases front with
      | ask front => exact .ask ((ih _).mpr ⟨_, later, value, rfl, front, back⟩)

end Conversation

/-- Holds of the exchanges that stand in no command's way: nobody is a bot, no channel is a direct one,
the platform does not fail, and no budget is used up. -/
def Exchange.Clear (e : Exchange) : Prop :=
  match e.request, e.answer with
  | .chat (.isBot _), answer => answer = .ok false
  | .chat (.isDirect _), answer => answer = .ok false
  | .chat _, answer => ∃ value, answer = .ok value
  | .charge _ _ _, answer => answer = .accepted
  | _, _ => True

/-- The text that an exchange brings to a channel. -/
def Exchange.sent? (e : Exchange) : Option (ChannelId × String) :=
  match e.request with
  | .chat (.send channel content) => some (channel, content)
  | _ => none

def sentBy (log : List Exchange) : List (ChannelId × String) := log.filterMap Exchange.sent?

theorem sentBy_append (first later : List Exchange) : sentBy (first ++ later) = sentBy first ++ sentBy later :=
  List.filterMap_append

/-- Some answer to each request is clear. -/
theorem exists_clear (request : Request) : ∃ answer, Exchange.Clear ⟨request, answer⟩ := by
  have message : Message := ⟨"", "", "", false, ""⟩
  cases request with
  | chat call =>
    cases call with
    | send | sendDirect | edit => exact ⟨.ok message, message, rfl⟩
    | delete | clearReactions | setReactions | removeReaction => exact ⟨.ok (), (), rfl⟩
    | awaitReply | awaitReaction => exact ⟨.ok none, none, rfl⟩
    | isDirect | isBot => exact ⟨.ok false, rfl⟩
  | charge => exact ⟨.accepted, rfl⟩
  | clock => exact ⟨Instant.clamp 0, trivial⟩
  | pick => exact ⟨(0 : Nat), trivial⟩
  | pause | deleteLater | requestShutdown | note => exact ⟨(), trivial⟩

theorem Conversation.exists_clear_run {α : Type} (c : Conversation α) :
    ∃ log value, c.Held log value ∧ ∀ e ∈ log, e.Clear := by
  induction c with
  | done value => exact ⟨[], value, .done, fun _ member => (nomatch member)⟩
  | ask request next ih =>
    obtain ⟨answer, clear⟩ := exists_clear request
    obtain ⟨log, value, run, later⟩ := ih answer
    exact ⟨⟨request, answer⟩ :: log, value, .ask run, List.forall_mem_cons.mpr ⟨clear, later⟩⟩

namespace Talk

variable {ε ε' α β : Type}

/-- Every clear run of a talk succeeds, and what it sends and yields is as `post` says. -/
def Clears (talk : Talk ε α) (post : List (ChannelId × String) → α → Prop) : Prop :=
  ∀ log result, talk.run.Held log result → (∀ e ∈ log, e.Clear) →
    ∃ value, result = .ok value ∧ post (sentBy log) value

theorem Clears.pure {value : α} {post : List (ChannelId × String) → α → Prop} (holds : post [] value) :
    Clears (Pure.pure value : Talk ε α) post := by
  intro log result run clear
  cases run
  exact ⟨value, rfl, holds⟩

theorem Clears.bind {talk : Talk ε α} {next : α → Talk ε β} {mid : List (ChannelId × String) → α → Prop}
    {post : List (ChannelId × String) → β → Prop} (first : talk.Clears mid)
    (later : ∀ {sent value}, mid sent value →
      (next value).Clears fun more result => post (sent ++ more) result) : (talk >>= next).Clears post := by
  intro log result run clear
  obtain ⟨front, back, outcome, rfl, runFront, runBack⟩ := Conversation.held_bind_iff.mp run
  obtain ⟨clearFront, clearBack⟩ := List.forall_mem_append.mp clear
  obtain ⟨value, rfl, holds⟩ := first _ _ runFront clearFront
  rw [sentBy_append]
  exact later holds _ _ runBack clearBack

theorem clears_chat {call : ChatCall} {kind : ChatError → ε}
    {post : List (ChannelId × String) → call.Value → Prop}
    (holds : ∀ value, Exchange.Clear ⟨.chat call, .ok value⟩ → post (sentBy [⟨.chat call, .ok value⟩]) value)
    (answers : ∀ e, ¬ Exchange.Clear ⟨.chat call, .error e⟩) : (orElseAs kind (chat call)).Clears post := by
  intro log result run clear
  cases run with
  | @ask _ _ answer _ _ run =>
    have own := clear _ (List.mem_cons_self ..)
    cases answer with
    | error e => exact absurd own (answers e)
    | ok value =>
      cases run
      exact ⟨value, rfl, holds value own⟩

theorem clears_isBot {user : UserId} {kind : ChatError → ε} :
    (orElseAs kind (chat (.isBot user))).Clears fun sent isBot => sent = [] ∧ isBot = false := by
  refine clears_chat (fun value own => ⟨rfl, Except.ok.inj own⟩) fun e own => ?_
  cases own

theorem clears_isDirect {channel : ChannelId} {kind : ChatError → ε} :
    (orElseAs kind (chat (.isDirect channel))).Clears fun sent isDirect => sent = [] ∧ isDirect = false := by
  refine clears_chat (fun value own => ⟨rfl, Except.ok.inj own⟩) fun e own => ?_
  cases own

theorem clears_send {channel : ChannelId} {content : String} {kind : ChatError → ε} :
    (orElseAs kind (chat (.send channel content))).Clears fun sent _ => sent = [(channel, content)] := by
  refine clears_chat (fun _ _ => rfl) fun e own => ?_
  obtain ⟨_, same⟩ := own
  cases same

theorem clears_clock : (service (ε := ε) .clock).Clears fun sent _ => sent = [] := by
  intro log result run clear
  cases run with
  | ask run =>
    cases run
    exact ⟨_, rfl, rfl⟩

theorem clears_charge {limiter : Limiter} {user : UserId} {now : Instant} :
    (service (.charge limiter user now) : Talk ε Charge).Clears fun sent charge =>
      sent = [] ∧ charge = .accepted := by
  intro log result run clear
  cases run with
  | @ask _ _ answer _ _ run =>
    have own := clear _ (List.mem_cons_self ..)
    cases run
    exact ⟨answer, rfl, rfl, own⟩

section

variable {log : List Exchange}

theorem held_pure_iff {value : α} {result : Except ε α} :
    (pure value : Talk ε α).run.Held log result ↔ log = [] ∧ result = .ok value := by
  constructor
  · intro run
    cases run
    exact ⟨rfl, rfl⟩
  · rintro ⟨rfl, rfl⟩
    exact .done

theorem held_throw_iff {e : ε} {result : Except ε α} :
    (throw e : Talk ε α).run.Held log result ↔ log = [] ∧ result = .error e := by
  constructor
  · intro run
    cases run
    exact ⟨rfl, rfl⟩
  · rintro ⟨rfl, rfl⟩
    exact .done

/-- A talk goes on after the first part of it only when that succeeds. -/
theorem held_bind_iff {talk : Talk ε α} {next : α → Talk ε β} {result : Except ε β} :
    (talk >>= next).run.Held log result ↔
      (∃ e, talk.run.Held log (.error e) ∧ result = .error e) ∨
      ∃ first later value, log = first ++ later ∧ talk.run.Held first (.ok value) ∧
        (next value).run.Held later result := by
  constructor
  · intro run
    obtain ⟨first, later, outcome, rfl, front, back⟩ := Conversation.held_bind_iff.mp run
    cases outcome with
    | ok value => exact .inr ⟨first, later, value, rfl, front, back⟩
    | error e =>
      cases back
      rw [List.append_nil]
      exact .inl ⟨e, front, rfl⟩
  · rintro (⟨e, front, rfl⟩ | ⟨first, later, value, rfl, front, back⟩)
    · exact Conversation.held_bind_iff.mpr ⟨log, [], _, (List.append_nil log).symm, front, .done⟩
    · exact Conversation.held_bind_iff.mpr ⟨first, later, _, rfl, front, back⟩

theorem held_service_bind_iff {request : Request} {next : request.Answer → Talk ε β} {result : Except ε β} :
    (service request >>= next).run.Held log result ↔
      ∃ answer later, log = ⟨request, answer⟩ :: later ∧ (next answer).run.Held later result := by
  constructor
  · intro run
    cases run with
    | ask run => exact ⟨_, _, rfl, run⟩
  · rintro ⟨answer, later, rfl, run⟩
    exact .ask run

theorem held_chat_bind_iff {call : ChatCall} {kind : ChatError → ε} {next : call.Value → Talk ε β}
    {result : Except ε β} :
    (orElseAs kind (chat call) >>= next).run.Held log result ↔
      (∃ e, log = [⟨.chat call, .error e⟩] ∧ result = .error (kind e)) ∨
      ∃ value later, log = ⟨.chat call, .ok value⟩ :: later ∧ (next value).run.Held later result := by
  constructor
  · intro run
    cases run with
    | @ask _ _ answer _ _ run =>
      cases answer with
      | ok value => exact .inr ⟨value, _, rfl, run⟩
      | error e =>
        cases run
        exact .inl ⟨e, rfl, rfl⟩
  · rintro (⟨e, rfl, rfl⟩ | ⟨value, later, rfl, run⟩)
    · exact .ask .done
    · exact .ask run

theorem held_orElseAs_iff {kind : ε → ε'} {talk : Talk ε α} {result : Except ε' α} :
    (orElseAs kind talk).run.Held log result ↔
      ∃ outcome, talk.run.Held log outcome ∧ result = outcome.mapError kind := by
  constructor
  · intro run
    obtain ⟨first, _, outcome, rfl, front, back⟩ := Conversation.held_bind_iff.mp run
    cases back
    rw [List.append_nil]
    exact ⟨outcome, front, rfl⟩
  · rintro ⟨outcome, front, rfl⟩
    exact Conversation.held_bind_iff.mpr ⟨log, [], outcome, (List.append_nil log).symm, front, .done⟩

end

end Talk

end ChatCommands
