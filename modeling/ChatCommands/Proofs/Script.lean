import ChatCommands.Proofs.Chat.Asks
import ChatCommands.Proofs.Session.Isolation
import ChatCommands.Script

namespace ChatCommands

/-- Charges no limit, however it is answered. -/
def Request.Free (request : Request) : Prop := ∀ answer, Exchange.charges ⟨request, answer⟩ = false

theorem Request.free_chat (call : ChatCall) : (Request.chat call).Free := fun _ => rfl

namespace MenuScript

theorem asks_attempt {β : Type} {talk : Talk ChatError β} (asks : talk.Asks Request.Free) :
    (attempt talk).Asks Request.Free := by
  refine .bind asks fun outcome => ?_
  cases outcome <;> exact .done

theorem asks_handler (script : MenuScript) : script.handler.Asks Request.Free where
  onReaction state message event := by
    have plays (move : MenuMove) : (play message event.emoji move).Asks Request.Free := by
      cases move with
      | proceed | finish | fail => exact .done
      | delete | edit => exact .bind (asks_attempt (Talk.asks_chat (Request.free_chat _))) fun _ => .done
    exact .bind (plays _) fun _ => .done
  onFinish state message termination := by
    have bids : (bid message script.farewell).Asks Request.Free := by
      cases script.farewell with
      | nothing | fail => exact .done
      | edit => exact asks_attempt (Talk.asks_chat (Request.free_chat _))
    exact .bind bids fun _ => .done

theorem asks_hold (script : MenuScript) (message : Message) (start : Menu.Options) :
    (script.hold message start).Asks Request.Free := by
  have handles : (if script.plain then plainHandler else script.handler).Asks Request.Free := by
    split
    · exact ⟨fun _ _ _ => .done, fun _ _ _ => .done⟩
    · exact script.asks_handler
  exact .bind (Menu.asks_hold Request.free_chat handles) fun _ => .done

end MenuScript

namespace Script

variable {α : Type} {inv : Invocation α}

theorem asks_tell {content : String} : (tell inv content).Asks Request.Free :=
  .bind (Invocation.asks_say Request.free_chat).orElseAs fun _ => Talk.asks_pure

theorem asks_perform (script : Script) (values : List String) : (script.perform inv values).Asks Request.Free := by
  cases script with
  | help | echo | whoami => exact asks_tell
  | record => exact Talk.asks_pure
  | fail | runtime => exact Talk.asks_throw
  | ping => exact .bind (Talk.asks_service fun _ => rfl) fun _ => asks_tell
  | shutdown => exact .bind asks_tell fun _ => Talk.asks_service fun _ => rfl
  | sendTo | direct => exact .bind (Talk.asks_chat (Request.free_chat _)).orElseAs fun _ => Talk.asks_pure
  | prompt =>
    refine .bind (Talk.Asks.orElseAs ?_) fun answer => ?_
    · exact Invocation.asks_ask Request.free_chat
    · cases answer <;> exact asks_tell
  | awaitReply =>
    refine .bind (Talk.asks_chat (Request.free_chat _)).orElseAs fun reply => ?_
    cases reply <;> exact asks_tell
  | promptReaction =>
    refine .bind (Invocation.asks_askReaction Request.free_chat).orElseAs fun choice => ?_
    cases choice <;> exact asks_tell
  | menu content script =>
    refine .bind (Invocation.asks_say Request.free_chat).orElseAs fun message => ?_
    refine .bind (Talk.asks_lift (script.asks_hold message _)) fun report => ?_
    refine .bind (Talk.asks_service fun _ => rfl) fun _ => ?_
    cases report.outcome with
    | ok => exact Talk.asks_pure
    | error => exact Talk.asks_throw
  | quickMenu content emojis =>
    refine .bind (Invocation.asks_say Request.free_chat).orElseAs fun message => ?_
    refine .bind (Talk.asks_lift (MenuScript.asks_hold _ message _)) fun report => ?_
    cases report.outcome with
    | ok => exact asks_tell
    | error => exact Talk.asks_throw

end Script

namespace Bot

variable {bot : Bot Routine} {w w' after : World} {platform : Platform} {deed : Act Routine → Except ActionError Unit}

/-- No script charges a limit. -/
theorem uncharged_of_scripted (scripted : bot.perform = Routine.perform) {run : Handled Routine}
    (course : bot.Handles run.message run.own run.act? run.during run.result) :
    ∀ e ∈ run.during, e.charges = false := by
  have asks (act : Act Routine) : (bot.perform act.action act.inv act.values).Asks Request.Free := by
    rw [scripted]
    obtain ⟨inv, command, ⟨script, noted⟩, values⟩ := act
    cases noted with
    | false => exact script.asks_perform values
    | true => exact .bind (Talk.asks_service fun _ => rfl) fun _ => script.asks_perform values
  obtain ⟨message, own, act?, during, result⟩ := run
  cases course with
  | failed | settled => exact List.forall_mem_nil _
  | acted _ performed | actFailed _ performed => exact fun e member => (asks _).of_mem performed e member e.answer

theorem punctual_of_scripted (scripted : bot.perform = Routine.perform) {run : Handled Routine}
    (course : bot.Handles run.message run.own run.act? run.during run.result) (limiter : Limiter) :
    run.Punctual limiter := by
  intro e member time charged
  rw [Exchange.chargedAt?_eq_none (uncharged_of_scripted scripted course e member)] at charged
  cases charged

/-- A bot of scripts keeps every budget when messages are dispatched in the order of time. -/
theorem throttles_of_scripted (scripted : bot.perform = Routine.perform) {admitted : Group → Prop}
    (reach : bot.registry.Reachable admitted) {c : Command Routine} {limiter : Limiter}
    (limited : c.limiter? = some limiter) {runs : List (Handled Routine)} (each : bot.HandlesEach w runs after)
    (fresh : w.limits.lookup limiter = none)
    (inOrder : (runs.filterMap Handled.time?).Pairwise fun s t => s.toInt ≤ t.toInt) :
    bot.Throttles c limiter.window runs := by
  refine each.throttles reach.sound limited fresh (each.inOrder (fun run member => ?_) inOrder)
  exact punctual_of_scripted scripted (each.handles run member) limiter

theorem Calls.ahead_of_scripted (scripted : bot.perform = Routine.perform) {calls : List (Handled Routine × Instant)}
    (run : bot.Calls platform deed w calls)
    (fresh : ∀ limiter, bot.registry.Limits limiter → w.limits.lookup limiter = none)
    (inOrder : calls.Pairwise fun s t => s.2.toInt ≤ t.2.toInt) (user : UserId) :
    bot.Ahead platform deed (fun _ => []) user (fun _ => []) w calls := by
  obtain ⟨after, each⟩ := run.each
  have handled : ∀ call ∈ calls, _ := fun call member => each.handles call.1 (List.mem_map_of_mem member)
  refine run.ahead (fun call member => ?_) fresh fun limiter _ => ?_
  · have free := Exchange.tolls_eq_nil (uncharged_of_scripted scripted (handled call member)) user
    exact ⟨fun _ _ _ => free, fun _ => free⟩
  · exact run.inOrder (fun call member => punctual_of_scripted scripted (handled call member) limiter) inOrder

/-- A bot of scripts makes the same of a user's messages, whatever others send, when messages are dispatched in the
order of time. -/
theorem isolated_of_scripted (scripted : bot.perform = Routine.perform)
    {calls calls' : List (Handled Routine × Instant)} (run : bot.Calls platform deed w calls)
    (run' : bot.Calls platform deed w' calls')
    (fresh : ∀ limiter, bot.registry.Limits limiter → w.limits.lookup limiter = none)
    (fresh' : ∀ limiter, bot.registry.Limits limiter → w'.limits.lookup limiter = none)
    (inOrder : calls.Pairwise fun s t => s.2.toInt ≤ t.2.toInt)
    (inOrder' : calls'.Pairwise fun s t => s.2.toInt ≤ t.2.toInt) {user : UserId}
    (same : messagesOf user calls = messagesOf user calls') : answersTo user calls = answersTo user calls' :=
  (run.ahead_of_scripted scripted fresh inOrder user).isolated
    (run'.ahead_of_scripted scripted fresh' inOrder' user) same

end Bot

end ChatCommands
