import ChatCommands.Proofs.Chat.Exchange
import ChatCommands.Proofs.Session.Turns

namespace ChatCommands

namespace World

variable {w : World}

theorem limits_of_answer {call : ChatCall} {answer : Except ChatError call.Value} {after : World}
    (run : w.perform call = (answer, after)) : after.limits = w.limits := by
  cases call <;> cases run <;> rfl

theorem limits_of_fault {name : String} {fault? : Option ChatError} {after : World}
    (met : w.meetFault name = (fault?, after)) : after.limits = w.limits := by
  unfold meetFault at met
  split at met <;> cases met <;> rfl

theorem Looks.limits_eq {call : ChatCall} {due? : Option Nat} {due : Nat} {answer : Except ChatError call.Value}
    {after : World} (looks : w.Looks call due? due answer after) : after.limits = w.limits := by
  cases looks with
  | first look _ passed => exact (limits_of_answer look).trans (limits_of_fault passed)
  | again look => exact limits_of_answer look

/-- Exchanges in which charges are answered as the hits on limits tell. They begin in one world and end in
another; no other exchange changes those hits, and how the platform answers is left open. -/
inductive Serves : World → List Exchange → World → Prop
  | nil {w after : World} : after.limits = w.limits → Serves w [] after
  | charge {w after : World} {limiter user now log} : Serves (w.charge limiter user now).2 log after →
      Serves w (⟨.charge limiter user now, (w.charge limiter user now).1⟩ :: log) after
  | other {w next after : World} {e log} : e.charges = false → next.limits = w.limits → Serves next log after →
      Serves w (e :: log) after

variable {after : World} {log : List Exchange}

theorem Serves.limits_eq (serves : w.Serves log after)
    (uncharged : log.any Exchange.charges = false) : after.limits = w.limits := by
  induction serves with
  | nil kept => exact kept
  | charge => cases uncharged
  | other free kept _ ih =>
    rw [List.any_cons, free, Bool.false_or] at uncharged
    exact (ih uncharged).trans kept

/-- How charges are answered depends on the hits alone. -/
theorem Serves.of_limits_eq {before : World} (serves : w.Serves log after) (same : w.limits = before.limits) :
    before.Serves log after := by
  induction serves generalizing before with
  | nil kept => exact .nil (kept.trans same)
  | @charge w after limiter user now log _ ih =>
    have answer : (w.charge limiter user now).1 = (before.charge limiter user now).1 := by
      rw [World.charge, World.charge, same]
    have limits : (w.charge limiter user now).2.limits = (before.charge limiter user now).2.limits := by
      rw [World.charge, World.charge, same]
    rw [answer]
    exact .charge (ih limits)
  | other free kept later _ => exact .other free (kept.trans same) later

theorem Serves.charged {limiter : Limiter} {user : UserId} {now : Instant} {charge : Charge}
    (told : (w.charge limiter user now).1 = charge) (rest : (w.charge limiter user now).2.Serves log after) :
    w.Serves (⟨.charge limiter user now, charge⟩ :: log) after := by
  rw [← told]
  exact .charge rest

theorem Serves.append {between : World} {later : List Exchange} (first : w.Serves log between)
    (rest : between.Serves later after) : w.Serves (log ++ later) after := by
  induction first with
  | nil kept => exact rest.of_limits_eq kept
  | charge _ ih => exact .charge (ih rest)
  | other free kept _ ih => exact .other free kept (ih rest)

theorem Serves.split {first later : List Exchange} (serves : w.Serves (first ++ later) after) :
    ∃ between, w.Serves first between ∧ between.Serves later after := by
  induction first generalizing w with
  | nil => exact ⟨w, .nil rfl, serves⟩
  | cons e rest ih =>
    cases serves with
    | charge more =>
      obtain ⟨between, front, back⟩ := ih more
      exact ⟨between, .charge front, back⟩
    | other free kept more =>
      obtain ⟨between, front, back⟩ := ih more
      exact ⟨between, .other free kept front, back⟩

theorem Meets.serves {due? : Option Nat} {request : Request} {answer : request.Answer} {between : World}
    (meets : w.Meets due? request answer between) (rest : between.Serves log after) :
    w.Serves (⟨request, answer⟩ :: log) after := by
  cases meets with
  | fails faulted => exact .other rfl (limits_of_fault faulted) rest
  | performs _ passed look => exact .other rfl ((limits_of_answer look).trans (limits_of_fault passed)) rest
  | looks looks => exact .other rfl looks.limits_eq rest
  | charge => exact .charge rest
  | _ =>
    refine .other rfl ?_ rest
    rfl

end World

variable {β : Type}

theorem Exchange.waits_of_timeout {call : ChatCall} {answer : Except ChatError call.Value}
    (waits : call.timeout?.isSome = true) : Exchange.waits ⟨.chat call, answer⟩ = true := by
  cases call with
  | awaitReply | awaitReaction => rfl
  | _ => cases waits

/-- A turn brings a conversation to where these exchanges lead. When it stops there to wait, every way to
go on begins with the wait. -/
def Turn.Follows (turn : Turn β) (c : Conversation β) (log : List Exchange) : Prop :=
  match turn with
  | .ended value => c.Held log value
  | .waits _ rest => ∀ later value, rest.Held later value →
      c.Held (log ++ later) value ∧ later.any Exchange.waits = true
  | .crashed => True

theorem Turn.Follows.ask {turn : Turn β} {request : Request} {next : request.Answer → Conversation β}
    {answer : request.Answer} {log : List Exchange} (follows : turn.Follows (next answer) log) :
    turn.Follows (.ask request next) (⟨request, answer⟩ :: log) := by
  cases turn with
  | ended value => exact Conversation.Held.ask follows
  | waits due rest =>
    intro later value run
    obtain ⟨whole, waits⟩ := follows later value run
    exact ⟨.ask whole, waits⟩
  | crashed => trivial

namespace Conversation

/-- A turn that began in `w` stands for some exchanges that the world served. -/
def Goes (c : Conversation β) (w : World) (turn : Turn β × PutOff × World) : Prop :=
  ∃ log, turn.1.Follows c log ∧ w.Serves log turn.2.2

theorem goes_waits {request : Request} {next : request.Answer → Conversation β} {w after : World} {due : Nat}
    (waits : ∀ answer, Exchange.waits ⟨request, answer⟩ = true) (kept : after.limits = w.limits) :
    (Conversation.ask request next).Goes w (.waits due (.ask request next), [], after) := by
  refine ⟨[], fun later value run => ⟨run, ?_⟩, .nil kept⟩
  cases run with
  | ask => rw [List.any_cons, waits, Bool.true_or]

/-- Whatever a turn brings about, charges are answered as the hits on limits tell. -/
theorem Advances.goes {c : Conversation β} {due? : Option Nat} {w : World} {turn : Turn β × PutOff × World}
    (advances : c.Advances due? w turn) : c.Goes w turn := by
  induction advances with
  | done => exact ⟨[], .done, .nil rfl⟩
  | ask meets _ ih =>
    obtain ⟨log, follows, serves⟩ := ih
    exact ⟨_, follows.ask, meets.serves serves⟩
  | sleeps looks =>
    exact goes_waits (fun _ => Exchange.waits_of_timeout looks.waits) looks.limits_eq
  | pauses => exact goes_waits (fun _ => rfl) rfl
  | crashed _ passed => exact ⟨[], trivial, .nil (World.limits_of_fault passed)⟩
  | busy _ _ ih => exact ih

/-- A turn that began in `w` stands for some exchanges, and the hits on limits are as they were in `w`
unless a limit was charged among them. -/
def Reaches (c : Conversation β) (w : World) (turn : Turn β × PutOff × World) : Prop :=
  ∃ log, turn.1.Follows c log ∧ (log.any Exchange.charges = false → turn.2.2.limits = w.limits)

/-- Whatever a turn brings about, only charges change the hits on limits. -/
theorem reaches_advance {c : Conversation β} {w : World} : c.Reaches w (c.advance w) := by
  obtain ⟨log, follows, serves⟩ := advances_advance.goes
  exact ⟨log, follows, serves.limits_eq⟩

end Conversation

end ChatCommands
