import ChatCommands.Proofs.Chat.Asks
import ChatCommands.Session.World

namespace ChatCommands

/-- How long an exchange takes when nothing happens from outside: a wait that finds something finds it at once, and a
wait in vain takes all its time. -/
def Exchange.duration : Exchange → Nat
  | ⟨.chat (.awaitReply _ _ timeout), .ok none⟩ => timeout
  | ⟨.chat (.awaitReaction _ _ timeout), .ok none⟩ => timeout
  | ⟨.pause n, _⟩ => n
  | _ => 0

/-- Holds of requests that can be made at the time `now`: the end of a wait must be a time that a clock can show. -/
def Request.Timely (now : Nat) : Request → Prop
  | .chat call => ∀ timeout ∈ call.timeout?, now + timeout < World.clockEnd
  | _ => True

/-- Exchanges that come one after another from the time `now` on. Each request can be made at its time. -/
inductive Timely : (now : Nat) → List Exchange → Prop
  | nil {now} : Timely now []
  | cons {now e log} : e.request.Timely now → Timely (now + e.duration) log → Timely now (e :: log)

/-- How long some exchanges take. -/
def durationOf : List Exchange → Nat
  | [] => 0
  | e :: log => e.duration + durationOf log

theorem timely_append_iff {now : Nat} {first later : List Exchange} :
    Timely now (first ++ later) ↔ Timely now first ∧ Timely (now + durationOf first) later := by
  induction first generalizing now with
  | nil => exact ⟨fun timely => ⟨.nil, timely⟩, fun timely => timely.2⟩
  | cons e first ih =>
    rw [durationOf, ← Nat.add_assoc]
    constructor
    · rintro (_ | ⟨own, timely⟩)
      obtain ⟨front, back⟩ := ih.mp timely
      exact ⟨.cons own front, back⟩
    · rintro ⟨_ | ⟨own, front⟩, back⟩
      exact .cons own (ih.mpr ⟨front, back⟩)

namespace Request

/-- Holds of requests that wait for no event any longer. -/
def EndsWithin (limit : Nat) : Request → Prop
  | chat call => ∀ timeout ∈ call.timeout?, timeout ≤ limit
  | _ => True

/-- Holds of requests that are answered at once. -/
def Prompt : Request → Prop
  | chat call => call.timeout? = none
  | pause _ => False
  | _ => True

variable {request : Request}

theorem prompt_chat {call : ChatCall} (prompt : call.timeout? = none) : (chat call).Prompt := prompt

theorem Prompt.timely (prompt : request.Prompt) (now : Nat) : request.Timely now := by
  cases request with
  | chat call =>
    intro timeout waits
    cases prompt.symm.trans waits
  | _ => trivial

theorem EndsWithin.timely {limit now : Nat} (within : request.EndsWithin limit) (short : now + limit < World.clockEnd) :
    request.Timely now := by
  cases request with
  | chat call =>
    intro timeout waits
    have le := within timeout waits
    omega
  | _ => trivial

theorem Prompt.endsWithin (prompt : request.Prompt) (limit : Nat) : request.EndsWithin limit := by
  cases request with
  | chat call =>
    intro timeout waits
    cases prompt.symm.trans waits
  | _ => trivial

end Request

theorem Exchange.duration_of_prompt {e : Exchange} (prompt : e.request.Prompt) : e.duration = 0 := by
  obtain ⟨request, answer⟩ := e
  cases request with
  | chat call =>
    cases call with
    | awaitReply | awaitReaction => cases prompt
    | _ => rfl
  | pause => exact prompt.elim
  | _ => rfl

namespace Conversation

variable {α β : Type} {limit : Nat} {c : Conversation α} {f : α → Conversation β}

/-- Conversations that wait for nothing after time has passed, and for nothing longer than `limit`. -/
inductive Hasty (limit : Nat) : Conversation α → Prop
  | done {value} : Hasty limit (.done value)
  | ask {request next} : request.EndsWithin limit →
      (∀ answer, Exchange.duration ⟨request, answer⟩ = 0 → Hasty limit (next answer)) →
      (∀ answer, Exchange.duration ⟨request, answer⟩ ≠ 0 → (next answer).Asks Request.Prompt) →
      Hasty limit (.ask request next)

theorem Asks.timely {request : Request} {next : request.Answer → Conversation α} {log : List Exchange} {now : Nat}
    (prompt : c.Asks Request.Prompt) (comes : c.Comes log (.ask request next)) : request.Timely now := by
  cases prompt.of_comes comes with
  | ask own => exact own.timely now

/-- Whoever is hasty is in time, wherever the conversation leads. -/
theorem Hasty.timely {request : Request} {next : request.Answer → Conversation α} {log : List Exchange} {now : Nat}
    (hasty : c.Hasty limit) (short : now + limit < World.clockEnd) (comes : c.Comes log (.ask request next)) :
    request.Timely (now + durationOf log) := by
  induction hasty generalizing log with
  | done => cases comes
  | ask within _ later ih =>
    cases comes with
    | start => exact within.timely short
    | @ask _ _ answer log _ comes =>
      by_cases instant : Exchange.duration ⟨_, answer⟩ = 0
      · rw [durationOf, instant, Nat.zero_add]
        exact ih answer instant comes
      · exact (later answer instant).timely comes

theorem Asks.hasty (prompt : c.Asks Request.Prompt) (limit : Nat) : c.Hasty limit := by
  induction prompt with
  | done => exact .done
  | ask own later ih => exact .ask (own.endsWithin limit) (fun answer _ => ih answer) fun answer _ => later answer

theorem Hasty.after (prompt : c.Asks Request.Prompt) (later : ∀ value, (f value).Hasty limit) :
    (c >>= f).Hasty limit := by
  induction prompt with
  | done => exact later _
  | ask own _ ih =>
    refine .ask (own.endsWithin limit) (fun answer _ => ih answer) fun answer passed => ?_
    exact absurd (Exchange.duration_of_prompt own) passed

/-- What comes after a hasty conversation must be prompt, as time may have passed. -/
theorem Hasty.bind (hasty : c.Hasty limit) (later : ∀ value, (f value).Asks Request.Prompt) :
    (c >>= f).Hasty limit := by
  induction hasty with
  | done => exact (later _).hasty limit
  | ask within _ prompt ih => exact .ask within ih fun answer passed => (prompt answer passed).bind later

/-- Whoever waits may go on as hastily if something was found, and promptly if the wait was in vain. -/
theorem Hasty.wait {call : ChatCall} {f : Except ChatError call.Value → Conversation β} {timeout : Nat}
    (waits : call.timeout? = some timeout) (later : ∀ answer, (f answer).Hasty timeout)
    (vain : ∀ answer, Exchange.duration ⟨.chat call, answer⟩ ≠ 0 → (f answer).Asks Request.Prompt) :
    (Conversation.request (.chat call) >>= f).Hasty timeout := by
  refine .ask ?_ (fun answer _ => later answer) vain
  intro t member
  rw [waits] at member
  cases member
  exact Nat.le_refl _

end Conversation

namespace Menu

variable {σ : Type} {menu : Menu σ}

theorem hasty_play (handles : menu.handler.Asks Request.Prompt) {left past : Nat} {active : Bool} {state : σ} :
    (menu.play left past active state).Hasty menu.options.timeout := by
  induction left generalizing past active state with
  | zero => exact .done
  | succ left ih =>
    rw [play]
    refine .after (Talk.Asks.bind (Talk.asks_chat (Request.prompt_chat rfl)) fun _ =>
      Talk.asks_chat (Request.prompt_chat rfl)) fun prepared => ?_
    cases prepared with
    | error e => exact .done
    | ok =>
      refine .wait rfl (fun awaited => ?_) fun awaited passed => ?_
      · rcases awaited with _ | _ | event
        · exact .done
        · exact .done
        refine .after (.request (Request.prompt_chat rfl)) fun removed => ?_
        cases removed with
        | error e => exact .done
        | ok =>
          refine .after (handles.onReaction _ _ _) fun reacted => ?_
          obtain ⟨after, _ | _ | _⟩ := reacted
          · exact .done
          · exact ih
          · exact .done
      · rcases awaited with _ | _ | event
        · exact .done
        · exact .done
        · exact absurd rfl passed

/-- A menu whose handler is prompt waits in vain only once, and then it is over. -/
theorem hasty_hold (handles : menu.handler.Asks Request.Prompt) {initial : σ} :
    (menu.hold initial).Hasty menu.options.timeout :=
  .bind (hasty_play handles) fun _ => .bind (handles.onFinish _ _ _) fun _ => .done

end Menu

namespace Invocation

variable {α : Type} {inv : Invocation α} {question : String} {timeout? : Option Nat}

theorem hasty_ask {accepts : Message → Bool} : Conversation.Hasty (timeout?.getD (inv.config.promptTimeout * 1000))
    (inv.ask question timeout? accepts).run := by
  refine .after (Talk.asks_chat (Request.prompt_chat rfl)) fun said => ?_
  cases said with
  | error e => exact .done
  | ok sent =>
    refine .wait rfl (fun awaited => ?_) fun awaited _ => ?_
    · cases awaited <;> exact .done
    · cases awaited <;> exact .done

/-- The menu that a question for a reaction holds on its message. -/
def choiceMenu (inv : Invocation α) (emojis : List String) (anyone : Bool) (timeout? : Option Nat) (sent : Message) :
    Menu (Option String) :=
  ⟨sent, emojis, Menu.chooser, {
    timeout := timeout?.getD inv.menuOptions.timeout
    maxRounds? := some 1
    accepts := fun event => anyone || event.user == inv.author }⟩

theorem hasty_askReaction {emojis : List String} {anyone : Bool} :
    Conversation.Hasty (timeout?.getD inv.menuOptions.timeout)
      (inv.askReaction question emojis anyone timeout?).run := by
  refine .after (Talk.asks_chat (Request.prompt_chat rfl)).orElseAs fun direct => ?_
  rcases direct with e | _ | _
  · exact .done
  · refine .after (Talk.asks_chat (Request.prompt_chat rfl)).orElseAs fun said => ?_
    cases said with
    | error e => exact .done
    | ok message =>
      have held := @Menu.hasty_hold _ (inv.choiceMenu emojis anyone timeout? message) Menu.asks_chooser none
      refine .bind (held.bind fun _ => .done) fun lifted => ?_
      cases lifted with
      | error e => exact .done
      | ok ending =>
        obtain ⟨state, rounds, _ | _⟩ := ending
        · exact .done
        · exact .done
  · exact .done

end Invocation

end ChatCommands
