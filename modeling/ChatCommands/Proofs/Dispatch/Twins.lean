import ChatCommands.Proofs.Dispatch.Handling

namespace ChatCommands

variable {α β ε ε' : Type}

/-- The requests whose answers dispatch goes by. -/
inductive Request.Plain : Request → Prop
  | isBot {user} : Plain (.chat (.isBot user))
  | isDirect {channel} : Plain (.chat (.isDirect channel))
  | charge {limiter user now} : Plain (.charge limiter user now)
  | clock : Plain .clock

/-- Conversations that make the same requests and come to the same value as long as they are answered alike.
What the platform tells of a message that it has sent makes no difference. -/
inductive Conversation.Twins : Conversation α → Conversation α → Prop
  | done {value} : Twins (.done value) (.done value)
  | plain {request next next'} : request.Plain → (∀ answer, Twins (next answer) (next' answer)) →
      Twins (.ask request next) (.ask request next')
  | send {channel content next next'} : (∀ e, Twins (next (.error e)) (next' (.error e))) →
      (∀ sent sent', Twins (next (.ok sent)) (next' (.ok sent'))) →
      Twins (.ask (.chat (.send channel content)) next) (.ask (.chat (.send channel content)) next')
  | deleteLater {message message' delay next next'} : Twins (next ()) (next' ()) →
      Twins (.ask (.deleteLater message delay) next) (.ask (.deleteLater message' delay) next')

theorem Conversation.Twins.bind {c c' : Conversation α} {f f' : α → Conversation β} (twins : c.Twins c')
    (later : ∀ value, (f value).Twins (f' value)) : (c.bind f).Twins (c'.bind f') := by
  induction twins with
  | done => exact later _
  | plain asks _ ih => exact .plain asks ih
  | send _ _ failed sent => exact .send failed sent
  | deleteLater _ ih => exact .deleteLater ih

namespace Talk

/-- A talk is blind when it does not go by what it is told of messages that were sent. -/
def Blind (talk : Talk ε α) : Prop := Conversation.Twins talk.run talk.run

theorem blind_pure {value : α} : (pure value : Talk ε α).Blind := .done

theorem blind_throw {e : ε} : (throw e : Talk ε α).Blind := .done

theorem Blind.bind {talk : Talk ε α} {next : α → Talk ε β} (first : talk.Blind)
    (later : ∀ value, (next value).Blind) : (talk >>= next).Blind := by
  refine Conversation.Twins.bind first fun outcome => ?_
  cases outcome with
  | ok value => exact later value
  | error e => exact .done

theorem blind_chat {call : ChatCall} {kind : ChatError → ε} (asks : Request.Plain (.chat call)) :
    (orElseAs kind (chat call)).Blind :=
  .plain asks fun _ => .done

theorem blind_service {request : Request} (asks : request.Plain) : (service request : Talk ε _).Blind :=
  .plain asks fun _ => .done

/-- Whoever sends a message is blind when all there is to do next is the same for all messages. -/
theorem blind_send_bind {channel : ChannelId} {content : String} {kind : ChatError → ε}
    {next : Message → Talk ε β} (later : ∀ sent sent', (next sent).run.Twins (next sent').run) :
    (orElseAs kind (chat (.send channel content)) >>= next).Blind :=
  .send (fun _ => .done) later

theorem blind_tell {channel : ChannelId} {content : String} {kind : ChatError → ε} {value : β} :
    (do
      let _ ← orElseAs kind (chat (.send channel content))
      return value : Talk ε β).Blind :=
  blind_send_bind fun _ _ => .done

end Talk

namespace Invocation

open Talk

variable {inv : Invocation α}

theorem blind_charge {c : Command α} : (inv.charge c).Blind := by
  unfold charge
  cases c.profile.rateLimit? with
  | none => exact blind_pure
  | some limit =>
    refine (blind_service .charge).bind fun charged => ?_
    cases charged with
    | accepted => exact blind_pure
    | refused wait =>
      cases rendered : limit.renderNotice wait with
      | none =>
        simp only [rendered]
        exact blind_throw
      | some notice =>
        simp only [rendered]
        exact blind_send_bind fun _ _ => .deleteLater .done

theorem blind_after_charge {c : Command α} {next : Talk CommandError (Descent α)} (later : next.Blind) :
    (do
      if !(← inv.charge c) then return .refused
      next : Talk CommandError (Descent α)).Blind := by
  refine blind_charge.bind fun passed => ?_
  cases passed with
  | true => exact later
  | false => exact blind_pure

theorem blind_leaf {profile : Profile} {usage : Usage} {action : α} {tokens : List String} :
    (inv.descend (.leaf profile usage action) tokens).Blind := by
  unfold descend
  refine blind_after_charge ?_
  cases outcome : usage.matchTokens tokens with
  | ok values =>
    simp only [outcome]
    exact blind_pure
  | error mismatch =>
    simp only [outcome]
    exact blind_tell

theorem blind_descend {c : Command α} {tokens : List String} : (inv.descend c tokens).Blind := by
  induction tokens generalizing c with
  | nil =>
    cases c with
    | leaf profile usage action => exact blind_leaf
    | branch profile children =>
      unfold descend
      exact blind_after_charge blind_tell
  | cons token rest ih =>
    cases c with
    | leaf profile usage action => exact blind_leaf
    | branch profile children =>
      unfold descend
      refine blind_after_charge ?_
      cases child : (Command.branch profile children).child? token with
      | some b =>
        simp only [child]
        exact ih
      | none =>
        simp only [child]
        exact blind_tell

end Invocation

namespace Bot

open Talk

variable {bot : Bot α} {message : Message}

theorem blind_answer {content : String} {value : β} :
    (do
      receive.answer message content
      return value : Talk CommandError β).Blind := by
  unfold receive.answer
  rw [bind_assoc]
  exact blind_send_bind fun _ _ => .done

theorem blind_admit {c : Command α} {tokens : List String} :
    (do
      let time ← service .clock
      return .admitted ⟨bot.registry, bot.config, message, time⟩ c tokens :
        Talk CommandError (Admission α)).Blind :=
  (blind_service .clock).bind fun _ => blind_pure

theorem blind_receive : (bot.receive message).Blind := by
  unfold receive
  cases message.authorIsBot with
  | true => exact blind_pure
  | false =>
    refine (blind_chat .isBot).bind fun isBot => ?_
    cases isBot with
    | true => exact blind_pure
    | false =>
      cases cut : bot.text? message >>= Text.cut? with
      | none => exact blind_pure
      | some parts =>
        obtain ⟨head, remaining⟩ := parts
        cases top : bot.registry.command? head with
        | none =>
          simp only [top]
          exact blind_answer
        | some c =>
          simp only [top]
          cases c.profile.ownerOnly && message.author != bot.config.owner with
          | true => exact blind_answer
          | false =>
            cases c.profile.dmAllowed with
            | true => exact blind_admit
            | false =>
              refine (blind_chat .isDirect).bind fun isDirect => ?_
              cases isDirect with
              | true => exact blind_answer
              | false => exact blind_admit

/-- Dispatch does not go by what it is told of the messages that it sends. -/
theorem blind_dispatch : (bot.dispatch message).Blind := by
  unfold dispatch
  refine blind_receive.bind fun admission => ?_
  cases admission with
  | settled outcome => exact blind_pure
  | admitted inv c tokens =>
    refine Invocation.blind_descend.bind fun descent => ?_
    cases descent with
    | refused => exact blind_pure
    | arrived command action values => exact blind_pure

end Bot

end ChatCommands
