import ChatCommands.Proofs.Memory.Answers
import ChatCommands.Proofs.Session.Rest
import ChatCommands.Proofs.Waiting.Sessions

namespace ChatCommands

variable {β ρ : Type}

namespace World

variable {w after : World} {call : ChatCall}

theorem respond_of_perform {answer : Except ChatError call.Value} (look : w.perform call = (answer, after)) :
    w.memory.respond w.memory.freshId call = (answer, after.memory) ∧ after.faults = w.faults := by
  rw [Memory.perform_eq] at look
  cases look
  exact ⟨rfl, rfl⟩

theorem Calm.of_perform {answer : Except ChatError call.Value} (calm : w.Calm)
    (look : w.perform call = (answer, after)) : after.Calm :=
  ⟨(respond_of_perform look).2.trans calm.faults, (still_of_perform look).crashed.trans calm.intact⟩

theorem Looks.perform {due? : Option Nat} {due : Nat} {answer : Except ChatError call.Value}
    (looks : w.Looks call due? due answer after) (calm : w.Calm) : w.perform call = (answer, after) := by
  cases looks with
  | first look _ passed =>
    cases (calm.meetFault_eq _).symm.trans passed
    exact look
  | again look => exact look

theorem Looks.ends {due : Nat} {answer : Except ChatError call.Value} (looks : w.Looks call none due answer after) :
    ∃ timeout, call.timeout? = some timeout ∧ due = w.now + timeout ∧ w.now + timeout < clockEnd := by
  cases looks with
  | first _ waits passed ends =>
    rw [(still_of_fault passed).deadline?_eq] at ends
    obtain ⟨within, same⟩ := deadline?_eq_some ends
    exact ⟨_, waits, same, within⟩

theorem Meets.calm {due? : Option Nat} {request : Request} {answer : request.Answer}
    (meets : w.Meets due? request answer after) (calm : w.Calm) : after.Calm := by
  cases meets with
  | fails faulted => cases (calm.meetFault_eq _).symm.trans faulted
  | performs _ passed look =>
    cases (calm.meetFault_eq _).symm.trans passed
    exact calm.of_perform look
  | looks looks => exact calm.of_perform (looks.perform calm)
  | _ => exact ⟨calm.faults, calm.intact⟩

/-- After a look in vain, another one is in vain as well, and leaves the platform as it is. -/
theorem respond_again (id : MessageId) {wait : Wait} {value : call.Value} (waits : call.wait? = some wait)
    (look : w.perform call = (.ok value, after)) (vain : call.found? value = none) :
    after.memory.respond id call = (.ok value, after.memory) := by
  obtain ⟨_, same, took⟩ := take_of_perform waits look
  cases same
  rw [vain] at took
  have again := (Wait.idle_of_take took).take_eq
  cases call with
  | awaitReply channel accepts timeout =>
    cases waits
    cases Option.map_eq_none_iff.mp vain
    have first := Option.map_eq_none_iff.mp (congrArg Prod.fst again)
    have second := congrArg Prod.snd again
    exact Prod.ext (congrArg Except.ok first) second
  | awaitReaction message accepts timeout =>
    cases waits
    cases Option.map_eq_none_iff.mp vain
    have first := Option.map_eq_none_iff.mp (congrArg Prod.fst again)
    have second := congrArg Prod.snd again
    exact Prod.ext (congrArg Except.ok first) second
  | _ => cases waits

end World

theorem Request.Immediate.putOff_eq {request : Request} (immediate : request.Immediate) : request.putOff = [] := by
  cases request with
  | deleteLater message delay => exact absurd rfl (immediate message delay)
  | _ => rfl

theorem Request.timely_of_waits {call : ChatCall} {timeout now : Nat} (waits : call.timeout? = some timeout)
    (within : now + timeout < World.clockEnd) : Request.Timely now (.chat call) := by
  rw [Request.Timely, waits]
  rintro _ ⟨⟩
  exact within

namespace Exchange

variable {call : ChatCall} {answer : Except ChatError call.Value}

/-- What was found was found at once. -/
theorem duration_of_found (found : call.inVain answer = false) : duration ⟨.chat call, answer⟩ = 0 := by
  cases call with
  | awaitReply | awaitReaction =>
    rcases answer with _ | _ | _
    · rfl
    · cases found
    · rfl
  | _ => rfl

theorem duration_of_vain {timeout : Nat} (waits : call.timeout? = some timeout) (vain : call.inVain answer = true) :
    duration ⟨.chat call, answer⟩ = timeout := by
  cases call with
  | awaitReply | awaitReaction =>
    cases waits
    rcases answer with _ | _ | _
    · cases vain
    · rfl
    · cases vain
  | _ => cases waits

end Exchange

namespace Conversation

/-- Whatever can become of `rest` from some point on can become of `c` from the beginning. -/
structure Inherits {α : Type} (c : Conversation α) (m : Memory) (now : Nat) (rest : Conversation α) (m' : Memory)
    (now' : Nat) : Prop where
  runs : ∀ {later value after}, rest.RunsOn m' now' later value after → ∃ log, c.RunsOn m now log value after
  overruns : rest.Overruns m' now' → c.Overruns m now

variable {c between rest : Conversation β} {m m' m'' : Memory} {now now' now'' : Nat}

theorem Inherits.refl (c : Conversation β) (m : Memory) (now : Nat) : c.Inherits m now c m now :=
  ⟨fun run => ⟨_, run⟩, id⟩

theorem Inherits.trans (first : c.Inherits m now between m' now')
    (second : between.Inherits m' now' rest m'' now'') : c.Inherits m now rest m'' now'' where
  runs run := by
    obtain ⟨_, run⟩ := second.runs run
    exact first.runs run
  overruns overruns := first.overruns (second.overruns overruns)

theorem inherits_ask {request : Request} {next : request.Answer → Conversation β} {answer : request.Answer}
    (answers : ∀ {log after}, m'.Answers log after → m.Answers (⟨request, answer⟩ :: log) after)
    (own : request.Timely now) :
    (ask request next).Inherits m now (next answer) m' (now + Exchange.duration ⟨request, answer⟩) where
  runs run := ⟨_, .ask run.held, answers run.answered, .cons own run.timely⟩
  overruns overruns := overruns.behind answers own

theorem inherits_chat {id : MessageId} {call : ChatCall} {next : Except ChatError call.Value → Conversation β}
    {answer : Except ChatError call.Value} (responds : m.respond id call = (answer, m'))
    (own : Request.Timely now (.chat call)) :
    (ask (.chat call) next).Inherits m now (next answer) m' (now + Exchange.duration ⟨.chat call, answer⟩) := by
  refine inherits_ask (fun answers => Memory.answers_chat_iff.mpr ⟨id, ?_, ?_⟩) own
  · rw [responds]
  · rw [responds]
    exact answers

/-- A look in vain makes no difference to what can become of the wait. -/
theorem inherits_vain {id : MessageId} {call : ChatCall} {next : Except ChatError call.Value → Conversation β}
    {answer : Except ChatError call.Value} (responds : m.respond id call = (answer, m'))
    (again : ∀ id, m'.respond id call = (answer, m')) (own : Request.Timely now (.chat call)) :
    (ask (.chat call) next).Inherits m now (ask (.chat call) next) m' now where
  runs run := by
    obtain ⟨id', answer', between, later, second, rfl, _, run⟩ := runsOn_chat_iff.mp run
    cases (again id').symm.trans second
    exact (inherits_chat responds own).runs run
  overruns := by
    rintro ⟨log, request', next', later, comes, answered, timely, late⟩
    cases comes with
    | start => exact absurd own late
    | ask comes =>
      obtain ⟨id', same, answered⟩ := Memory.answers_chat_iff.mp answered
      rw [again] at same answered
      obtain rfl := same
      have answers := Memory.answers_chat_iff.mpr ⟨id, by rw [responds], by rw [responds]; exact answered⟩
      exact ⟨_, request', next', later, .ask comes, answers, timely, late⟩

/-- The conversation waits in vain from the time `start` until the time `due`. -/
inductive Sleeps (m : Memory) (start due : Nat) : Conversation β → Prop
  | chat {call : ChatCall} {value : call.Value} {timeout next} : call.timeout? = some timeout →
      call.found? value = none → (∀ id, m.respond id call = (.ok value, m)) → Request.Timely start (.chat call) →
      due = start + timeout → Sleeps m start due (ask (.chat call) next)
  | pause {n next} : due = start + n → Sleeps m start due (ask (.pause n) next)

theorem Sleeps.le {start due : Nat} (sleeps : c.Sleeps m start due) : start ≤ due := by
  cases sleeps with
  | chat _ _ _ _ ends | pause ends =>
    rw [ends]
    exact Nat.le_add_right ..

end Conversation

/-- A turn of a conversation that has the platform for itself from the time `now` on. It leads to the end, or to a wait
from which every way on is a way to go from the beginning. -/
def Turn.Leads (c : Conversation β) (m : Memory) (now : Nat) (turn : Turn β × PutOff × World) : Prop :=
  turn.2.1 = [] ∧ turn.2.2.Calm ∧
    match turn.1 with
    | .ended value => ∃ log, c.RunsOn m now log value turn.2.2.memory
    | .waits due rest => rest.Asks Request.Immediate ∧ rest.Sleeps turn.2.2.memory turn.2.2.now due ∧
        c.Inherits m now rest turn.2.2.memory turn.2.2.now
    | .crashed => c.Overruns m now

theorem Turn.Leads.of_inherits {c rest : Conversation β} {m m' : Memory} {now now' : Nat}
    {turn : Turn β × PutOff × World} (leads : Turn.Leads rest m' now' turn) (inherits : c.Inherits m now rest m' now') :
    Turn.Leads c m now turn := by
  obtain ⟨nothing, calm, leads⟩ := leads
  refine ⟨nothing, calm, ?_⟩
  obtain ⟨turn, putOff, w⟩ := turn
  cases turn with
  | ended value =>
    obtain ⟨log, run⟩ := leads
    exact inherits.runs run
  | waits due rest =>
    obtain ⟨asks, sleeps, goes⟩ := leads
    exact ⟨asks, sleeps, inherits.trans goes⟩
  | crashed => exact inherits.overruns leads

namespace Conversation

/-- In a calm world, an answer that a conversation gets in its first turn takes no time. -/
theorem inherits_of_meets {request : Request} {next : request.Answer → Conversation β} {answer : request.Answer}
    {w after : World} (meets : w.Meets none request answer after) (calm : w.Calm) (immediate : request.Immediate) :
    (ask request next).Inherits w.memory w.now (next answer) after.memory w.now := by
  have goes (instant : Exchange.duration ⟨request, answer⟩ = 0)
      (inherits : (ask request next).Inherits w.memory w.now (next answer) after.memory
        (w.now + Exchange.duration ⟨request, answer⟩)) :
      (ask request next).Inherits w.memory w.now (next answer) after.memory w.now := by
    rwa [instant, Nat.add_zero] at inherits
  cases meets with
  | fails faulted => cases (calm.meetFault_eq _).symm.trans faulted
  | @performs call _ answer _ prompt passed look =>
    cases (calm.meetFault_eq _).symm.trans passed
    have found : call.inVain answer = false := by
      cases call with
      | awaitReply | awaitReaction => cases prompt
      | _ => rfl
    exact goes (Exchange.duration_of_found found)
      (inherits_chat (World.respond_of_perform look).1 ((Request.prompt_chat prompt).timely w.now))
  | @looks _ call due answer _ looks expired =>
    obtain ⟨timeout, waits, ends, within⟩ := looks.ends
    have answered := (World.respond_of_perform (looks.perform calm)).1
    refine goes ?_ (inherits_chat answered (Request.timely_of_waits waits within))
    cases vain : call.inVain answer with
    | false => exact Exchange.duration_of_found vain
    | true =>
      have instant := expired vain
      rw [looks.still.now, ends] at instant
      rw [Exchange.duration_of_vain waits vain]
      omega
  | @paused _ n expired =>
    obtain rfl : n = 0 := Nat.eq_zero_of_le_zero (Nat.le_of_add_le_add_left expired)
    exact goes rfl (inherits_ask (fun answers => .aside trivial answers) trivial)
  | deleteLater => exact absurd rfl (immediate _ _)
  | _ => exact goes rfl (inherits_ask (fun answers => .aside trivial answers) trivial)

theorem Advances.leads {c : Conversation β} {due? : Option Nat} {w : World} {turn : Turn β × PutOff × World}
    (advances : c.Advances due? w turn) (fresh : due? = none) (asks : c.Asks Request.Immediate) (calm : w.Calm) :
    Turn.Leads c w.memory w.now turn := by
  induction advances with
  | done => exact ⟨rfl, calm, [], .done, .nil, .nil⟩
  | @ask due? request next answer w between turn putOff after meets _ ih =>
    obtain rfl := fresh
    cases asks with
    | ask immediate later =>
      have leads := ih rfl (later answer) (meets.calm calm)
      rw [meets.still.now] at leads
      rw [immediate.putOff_eq, List.nil_append]
      exact leads.of_inherits (inherits_of_meets meets calm immediate)
  | @sleeps due? call next due answer w after looks vain early =>
    obtain rfl := fresh
    obtain ⟨timeout, waits, ends, within⟩ := looks.ends
    obtain ⟨wait, awaits, value, rfl, _⟩ := looks.take
    have look := looks.perform calm
    have nothing := (ChatCall.inVain_iff looks.waits).mp vain
    have again := fun id => World.respond_again id awaits look nothing
    have own := Request.timely_of_waits waits within
    refine ⟨rfl, calm.of_perform look, asks, ?_, ?_⟩
    · rw [looks.still.now]
      exact .chat waits nothing again own ends
    · rw [looks.still.now]
      exact inherits_vain (World.respond_of_perform look).1 again own
  | pauses ends =>
    obtain rfl := fresh
    exact ⟨rfl, calm, asks, .pause ends, .refl _ _ _⟩
  | @crashed call next timeout w after waits passed endless =>
    cases (calm.meetFault_eq _).symm.trans passed
    refine ⟨rfl, calm, [], _, next, w.memory, .start, .nil, .nil, fun timely => ?_⟩
    exact absurd (timely timeout waits) (Nat.not_lt_of_le (World.deadline?_eq_none_iff.mp endless))
  | busy => cases fresh

theorem leads_advance {c : Conversation β} {w : World} (asks : c.Asks Request.Immediate) (calm : w.Calm) :
    Turn.Leads c w.memory w.now (c.advance w) :=
  advances_advance.leads rfl asks calm

/-- A conversation that has waited in vain goes on at the end of its wait. -/
theorem leads_resume {c : Conversation β} {w : World} {start : Nat} (asks : c.Asks Request.Immediate) (calm : w.Calm)
    (sleeps : c.Sleeps w.memory start w.now) : Turn.Leads c w.memory start (c.resume w.now w) := by
  cases sleeps with
  | @chat call value timeout next waits vain again own due =>
    have look : w.perform call = (.ok value, w) := by
      rw [Memory.perform_eq, World.onMemory, again]
    have inherits : (ask (.chat call) next).Inherits w.memory start (next (.ok value)) w.memory _ :=
      inherits_chat (again "") own
    have nothing := (ChatCall.inVain_iff (Option.isSome_of_eq_some waits)).mpr vain
    rw [Exchange.duration_of_vain waits nothing, ← due] at inherits
    cases asks with
    | ask _ later =>
      have leads := (leads_advance (later (.ok value)) calm).of_inherits inherits
      cases call with
      | awaitReply | awaitReaction =>
        cases Option.map_eq_none_iff.mp vain
        rw [resume, look]
        simp only [Nat.le_refl, if_true]
        exact leads
      | _ => cases waits
  | @pause n next due =>
    cases asks with
    | ask _ later =>
      have inherits : (ask (.pause n) next).Inherits w.memory start (next ()) w.memory _ :=
        inherits_ask (.aside trivial) trivial
      have span : start + Exchange.duration ⟨.pause n, ()⟩ = w.now := due.symm
      rw [span] at inherits
      rw [resume, if_pos (Nat.le_refl _)]
      exact (leads_advance (later ()) calm).of_inherits inherits

end Conversation

namespace Session

variable {talk : Conversation ρ} {m : Memory} {start : Nat}

/-- The sessions in which nothing goes on but one conversation, which began at the time `start`. Whatever is left of it
is a way to go on. -/
inductive Attends (talk : Conversation ρ) (m : Memory) (start : Nat) : Session ρ → Prop
  | began {w} : w.Calm → talk.Asks Request.Immediate → w.memory = m → w.now = start →
      Attends talk m start ⟨w, [.main talk none], [], none⟩
  | waiting {w rest due} : w.Calm → rest.Asks Request.Immediate → rest.Sleeps w.memory w.now due →
      talk.Inherits m start rest w.memory w.now → Attends talk m start ⟨w, [], [.main rest (some due)], none⟩
  | due {w rest since} : w.Calm → rest.Asks Request.Immediate → rest.Sleeps w.memory since w.now →
      talk.Inherits m start rest w.memory since → Attends talk m start ⟨w, [.main rest (some w.now)], [], none⟩
  | ended {w value log} : talk.RunsOn m start log value w.memory → Attends talk m start ⟨w, [], [], some value⟩
  | crashed {w : World} : talk.Overruns m start → Attends talk m start ⟨{ w with crashed := true }, [], [], none⟩

theorem Attends.settleTurn {w : World} {turn : Turn ρ × PutOff × World} (leads : Turn.Leads talk m start turn) :
    Attends talk m start (Session.settleTurn ⟨w, [], [], none⟩ (fun rest due => .main rest (some due)) some turn) := by
  obtain ⟨turn, putOff, after⟩ := turn
  obtain ⟨nothing, calm, leads⟩ := leads
  obtain rfl : putOff = [] := nothing
  cases turn with
  | ended value =>
    obtain ⟨log, run⟩ := leads
    exact .ended run
  | waits due left =>
    obtain ⟨asks, sleeps, inherits⟩ := leads
    exact .waiting calm asks sleeps inherits
  | crashed => exact .crashed leads

theorem Attends.step {s after : Session ρ} (attends : Attends talk m start s) (next : s.next? = some after) :
    Attends talk m start after := by
  cases attends with
  | began calm asks memory time =>
    cases next
    rw [← memory, ← time]
    exact .settleTurn (Conversation.leads_advance asks calm)
  | @waiting w rest due calm asks sleeps inherits =>
    have later : max due w.now = due := Nat.max_eq_left sleeps.le
    have passes : next? ⟨w, [], [.main rest (some due)], none⟩ =
        some ⟨{ w with now := due }, [.main rest (some due)], [], none⟩ := by
      simp [next?, Session.passTime?, Task.due?, Task.isDue, calm.intact, later]
    cases passes.symm.trans next
    exact .due (w := { w with now := due }) ⟨calm.faults, calm.intact⟩ asks sleeps inherits
  | due calm asks sleeps inherits =>
    cases next
    exact .settleTurn ((Conversation.leads_resume asks calm sleeps).of_inherits inherits)
  | ended | crashed => cases next

theorem Attends.run {s : Session ρ} (attends : Attends talk m start s) (turns : Nat) :
    Attends talk m start (Session.run turns s) := by
  induction turns generalizing s with
  | zero => exact attends
  | succ turns ih =>
    rw [run_succ]
    cases next : s.next? with
    | none => exact attends
    | some after => exact ih (attends.step next)

/-- At rest the conversation has ended, unless it came to a wait that has no end. -/
theorem Attends.settled {s : Session ρ} (attends : Attends talk m start s) (rests : s.next? = none) :
    (∃ value log, s.result? = some value ∧ talk.RunsOn m start log value s.world.memory) ∨
      talk.Overruns m start := by
  cases attends with
  | ended run => exact .inl ⟨_, _, rfl, run⟩
  | crashed overruns => exact .inr overruns
  | began | due => cases rests
  | @waiting w rest due calm =>
    simp [next?, Session.passTime?, Task.due?, calm.intact] at rests

/-- A session that holds nothing but one conversation, without faults, comes to rest, and then the conversation has come
to what the platform answers to it, if it has asked in time. -/
theorem exists_runsOn_of_run {w : World} (asks : talk.Asks Request.Immediate) (calm : w.Calm)
    (inTime : ¬ talk.Overruns w.memory w.now) :
    ∃ turns after value log,
      (∀ more, turns ≤ more → Session.run more { world := w, ready := [.main talk none] } = after) ∧
        after.result? = some value ∧ talk.RunsOn w.memory w.now log value after.world.memory := by
  obtain ⟨turns, rests⟩ := exists_rest ⟨w, [.main talk none], [], none⟩
  have began : Attends talk w.memory w.now ⟨w, [.main talk none], [], none⟩ := .began calm asks rfl rfl
  rcases (began.run turns).settled rests with ⟨value, log, ended, run⟩ | overruns
  · exact ⟨turns, _, value, log, fun more enough => run_of_le rests enough, ended, run⟩
  · exact absurd overruns inTime

end Session

/-- With the platform for itself from the world `w` on, a conversation comes to an end, whatever identifier the platform
thinks of, and all that it can come to is as `post` tells. A session comes to nothing else. -/
structure Conversation.Achieves (c : Conversation ρ) (w : World) (post : List Exchange → ρ → Memory → Prop) : Prop where
  ends : ∀ id, ∃ log value after, c.RunsOn w.memory w.now log value after ∧ PostedAs id log
  holds : ∀ {log value after}, c.RunsOn w.memory w.now log value after → post log value after
  sessions : ∃ turns after value log,
    (∀ more, turns ≤ more → Session.run more { world := w, ready := [.main c none] } = after) ∧
      after.result? = some value ∧ c.RunsOn w.memory w.now log value after.world.memory

theorem Conversation.Asks.achieves {c : Conversation ρ} {w : World} {post : List Exchange → ρ → Memory → Prop}
    (asks : c.Asks Request.Immediate) (calm : w.Calm) (inTime : ¬ c.Overruns w.memory w.now)
    (holds : ∀ {log value after}, c.RunsOn w.memory w.now log value after → post log value after) :
    c.Achieves w post where
  ends id := exists_runsOn asks w.memory id inTime
  holds := holds
  sessions := Session.exists_runsOn_of_run asks calm inTime

end ChatCommands
