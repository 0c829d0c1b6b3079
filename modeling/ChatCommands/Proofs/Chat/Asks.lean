import ChatCommands.Invocation
import ChatCommands.Proofs.Chat.Progress

namespace ChatCommands

variable {α β : Type} {allowed : Request → Prop}

namespace ChatCall

/-- How long a call waits at the most. Most calls are answered at once. -/
def timeout? : ChatCall → Option Nat
  | awaitReply _ _ timeout => some timeout
  | awaitReaction _ _ timeout => some timeout
  | _ => none

/-- A call that waits for so long, if it waits at all. -/
def WaitsFor (timeout : Nat) (call : ChatCall) : Prop := ∀ t ∈ call.timeout?, t = timeout

theorem waitsFor_of_none {timeout : Nat} {call : ChatCall} (prompt : call.timeout? = none) : call.WaitsFor timeout := by
  rw [WaitsFor, prompt]
  exact nofun

theorem waitsFor_of_some {timeout : Nat} {call : ChatCall} (waits : call.timeout? = some timeout) :
    call.WaitsFor timeout := by
  rw [WaitsFor, waits]
  rintro _ ⟨⟩
  rfl

end ChatCall

/-- Conversations that make none but allowed requests, whatever they are answered. -/
inductive Conversation.Asks (allowed : Request → Prop) : Conversation α → Prop
  | done {value} : Asks allowed (.done value)
  | ask {request next} : allowed request → (∀ answer, Asks allowed (next answer)) →
      Asks allowed (.ask request next)

namespace Conversation

theorem Asks.request {request : Request} (allows : allowed request) :
    (Conversation.request request).Asks allowed :=
  .ask allows fun _ => .done

theorem Asks.bind {c : Conversation α} {f : α → Conversation β} (first : c.Asks allowed)
    (later : ∀ value, (f value).Asks allowed) : (c >>= f).Asks allowed := by
  induction first with
  | done => exact later _
  | ask allows _ ih => exact .ask allows ih

theorem Asks.mono {more : Request → Prop} {c : Conversation α} (asks : c.Asks allowed)
    (wider : ∀ request, allowed request → more request) : c.Asks more := by
  induction asks with
  | done => exact .done
  | ask allows _ ih => exact .ask (wider _ allows) ih

theorem Asks.of_comes {c rest : Conversation α} {log : List Exchange} (asks : c.Asks allowed)
    (comes : c.Comes log rest) : rest.Asks allowed := by
  induction comes with
  | start => exact asks
  | ask _ ih =>
    cases asks with
    | ask _ each => exact ih (each _)

theorem Asks.of_mem {c : Conversation α} {log : List Exchange} {value : α} (asks : c.Asks allowed)
    (run : c.Held log value) : ∀ e ∈ log, allowed e.request := by
  induction run with
  | done => exact List.forall_mem_nil _
  | ask _ ih =>
    cases asks with
    | ask allows later => exact List.forall_mem_cons.mpr ⟨allows, ih (later _)⟩

end Conversation

namespace Talk

variable {ε ε' : Type}

def Asks (allowed : Request → Prop) (talk : Talk ε α) : Prop := Conversation.Asks allowed talk.run

theorem asks_pure {value : α} : (pure value : Talk ε α).Asks allowed := .done

theorem asks_throw {e : ε} : (throw e : Talk ε α).Asks allowed := .done

theorem Asks.bind {talk : Talk ε α} {next : α → Talk ε β} (first : talk.Asks allowed)
    (later : ∀ value, (next value).Asks allowed) : (talk >>= next).Asks allowed := by
  refine Conversation.Asks.bind first fun outcome => ?_
  cases outcome with
  | ok value => exact later value
  | error e => exact .done

theorem Asks.orElseAs {kind : ε → ε'} {talk : Talk ε α} (asks : talk.Asks allowed) :
    (orElseAs kind talk).Asks allowed :=
  Conversation.Asks.bind asks fun _ => .done

theorem asks_chat {call : ChatCall} (allows : allowed (.chat call)) : (chat call).Asks allowed := .request allows

theorem asks_service {request : Request} (allows : allowed request) : (service request : Talk ε _).Asks allowed :=
  .ask allows fun _ => .done

theorem asks_lift {c : Conversation α} (asks : c.Asks allowed) : (ExceptT.lift c : Talk ε α).Asks allowed :=
  Conversation.Asks.bind asks fun _ => .done

end Talk

namespace Menu

variable {σ : Type}

/-- Handlers that make none but allowed requests. -/
structure Handler.Asks (allowed : Request → Prop) (handler : Handler σ) : Prop where
  onReaction : ∀ state message event, (handler.onReaction state message event).Asks allowed
  onFinish : ∀ state message termination, (handler.onFinish state message termination).Asks allowed

theorem Handler.Asks.mono {more : Request → Prop} {handler : Handler σ} (asks : handler.Asks allowed)
    (wider : ∀ request, allowed request → more request) : handler.Asks more :=
  ⟨fun _ _ _ => (asks.onReaction ..).mono wider, fun _ _ _ => (asks.onFinish ..).mono wider⟩

theorem asks_chooser : chooser.Asks allowed := ⟨fun _ _ _ => .done, fun _ _ _ => .done⟩

section

variable {menu : Menu σ} (calls : ∀ call : ChatCall, call.WaitsFor menu.options.timeout → allowed (.chat call))
  (handles : menu.handler.Asks allowed)
include calls handles

theorem asks_play {left past : Nat} {active : Bool} {state : σ} :
    (menu.play left past active state).Asks allowed := by
  have prompt : ∀ call : ChatCall, call.timeout? = none → allowed (.chat call) :=
    fun call prompt => calls call (ChatCall.waitsFor_of_none prompt)
  induction left generalizing past active state with
  | zero => exact .done
  | succ left ih =>
    rw [play]
    refine .bind (Talk.Asks.bind (Talk.asks_chat (prompt _ rfl)) fun _ => Talk.asks_chat (prompt _ rfl))
      fun prepared => ?_
    cases prepared with
    | error e => exact .done
    | ok =>
      refine .bind (.request (calls _ (ChatCall.waitsFor_of_some rfl))) fun awaited => ?_
      rcases awaited with _ | _ | event
      · exact .done
      · exact .done
      refine .bind (.request (prompt _ rfl)) fun removed => ?_
      cases removed with
      | error e => exact .done
      | ok =>
        refine .bind (handles.onReaction _ _ _) fun reacted => ?_
        obtain ⟨after, _ | _ | _⟩ := reacted
        · exact .done
        · exact ih
        · exact .done

/-- A menu waits for as long as its options say, and its handler does what it does. -/
theorem asks_hold_of_waits {initial : σ} : (menu.hold initial).Asks allowed :=
  .bind (asks_play calls handles) fun _ => .bind (handles.onFinish _ _ _) fun _ => .done

end

theorem asks_hold {menu : Menu σ} (calls : ∀ call, allowed (.chat call)) (handles : menu.handler.Asks allowed)
    {initial : σ} : (menu.hold initial).Asks allowed :=
  asks_hold_of_waits (fun _ _ => calls _) handles

end Menu

namespace Invocation

variable {inv : Invocation α} {question : String} {timeout? : Option Nat} {accepts : Message → Bool}
  {emojis : List String} {anyone : Bool}

section

variable
  (calls : ∀ call : ChatCall, call.WaitsFor (timeout?.getD (inv.config.promptTimeout * 1000)) → allowed (.chat call))
include calls

theorem asks_awaitReply_of_waits : (inv.awaitReply timeout? accepts).Asks allowed :=
  Talk.asks_chat (calls _ (ChatCall.waitsFor_of_some rfl))

theorem asks_ask_of_waits : (inv.ask question timeout? accepts).Asks allowed :=
  .bind (Talk.asks_chat (calls _ (ChatCall.waitsFor_of_none rfl))) fun _ =>
    .bind (asks_awaitReply_of_waits calls) fun _ => Talk.asks_pure

end

theorem asks_askReaction_of_waits
    (calls : ∀ call : ChatCall, call.WaitsFor (timeout?.getD inv.menuOptions.timeout) → allowed (.chat call)) :
    (inv.askReaction question emojis anyone timeout?).Asks allowed := by
  have prompt : ∀ call : ChatCall, call.timeout? = none → allowed (.chat call) :=
    fun call prompt => calls call (ChatCall.waitsFor_of_none prompt)
  refine .bind (Talk.asks_chat (prompt _ rfl)).orElseAs fun direct => ?_
  cases direct with
  | true => exact Talk.asks_throw
  | false =>
    refine .bind (Talk.asks_chat (prompt _ rfl)).orElseAs fun message => ?_
    refine .bind (Talk.asks_lift (Menu.asks_hold_of_waits calls Menu.asks_chooser)) fun ending => ?_
    cases ending.outcome with
    | ok => exact Talk.asks_pure
    | error => exact Talk.asks_throw

section

variable (calls : ∀ call, allowed (.chat call))
include calls

theorem asks_say {content : String} : (inv.say content).Asks allowed := Talk.asks_chat (calls _)

theorem asks_ask : (inv.ask question timeout? accepts).Asks allowed := asks_ask_of_waits fun _ _ => calls _

theorem asks_askReaction : (inv.askReaction question emojis anyone timeout?).Asks allowed :=
  asks_askReaction_of_waits fun _ _ => calls _

end

end Invocation

end ChatCommands
