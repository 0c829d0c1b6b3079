import ChatCommands.Load
import ChatCommands.Proofs.Menu.Rounds
import ChatCommands.Proofs.Session.Alone

namespace ChatCommands.Menu

open Conversation

variable {σ : Type} {menu : Menu σ} {m after : Memory} {log : List Exchange}

/-- The reaction that a callback is handed. -/
def Move.handed? : Move σ → Option Reaction
  | reaction _ event _ _ _ => some event
  | _ => none

/-- The emojis are put on afresh for each wait, once each. -/
theorem reactionsOn_prepared : (menu.prepared m).reactionsOn menu.message.id = menu.emojis.eraseDups := by
  rw [Memory.reactionsOn, prepared, lookup_setEntry, if_pos rfl]
  rfl

/-- In a round only the third move is a wait. -/
theorem split_of_awaiting {event : Reaction} {reaction : Move σ} {moves before later : List (Move σ)}
    {answer : Except ChatError (Option Reaction)} (reacts : reaction.waited? = none)
    (split : menu.upTo event ++ reaction :: moves = before ++ menu.awaiting answer :: later) :
    before = [menu.clearing (.ok ()), menu.setting (.ok ())] ∨
      ∃ before', before = menu.upTo event ++ reaction :: before' ∧ moves = before' ++ menu.awaiting answer :: later := by
  rcases before with _ | ⟨_, _ | ⟨_, _ | ⟨_, _ | ⟨_, _ | ⟨_, before⟩⟩⟩⟩⟩
  · cases split
  · cases split
  · cases split
    exact .inl rfl
  · cases split
  · cases split
    cases reacts
  · cases split
    exact .inr ⟨before, rfl, rfl⟩

section

variable {left past : Nat} {active : Bool} {state : σ} {moves : List (Move σ)} {stop : Stop σ}

theorem Rounds.reactionsOn (rounds : menu.Rounds left past active state m moves stop after) (hosted : menu.Hosted m)
    (off : menu.handler.Asks Request.OffPlatform)
    {before later : List (Move σ)} {answer : Except ChatError (Option Reaction)} {between : Memory}
    (split : moves = before ++ menu.awaiting answer :: later)
    (answers : m.Answers (before.flatMap Move.exchanges) between) :
    between.reactionsOn menu.message.id = menu.emojis.eraseDups := by
  have opening : ∀ {m : Memory}, menu.Hosted m → m.Answers
      ([menu.clearing (.ok ()), menu.setting (.ok ())].flatMap Move.exchanges) between →
      between.reactionsOn menu.message.id = menu.emojis.eraseDups := by
    intro m hosted answers
    cases (hosted.set (hosted.cleared answers).2).2
    exact reactionsOn_prepared
  induction rounds generalizing before with
  | exhausted => cases before <;> cases split
  | timedOut =>
    rcases before with _ | ⟨_, _ | ⟨_, _ | ⟨_, before⟩⟩⟩
    · cases split
    · cases split
    · cases split
      exact opening hosted answers
    · cases before <;> cases split
  | ended _ _ _ =>
    rcases split_of_awaiting rfl split with rfl | ⟨before', _, none⟩
    · exact opening hosted answers
    · cases before' <;> cases none
  | continued offered handled _ ih =>
    rcases split_of_awaiting rfl split with rfl | ⟨before', rfl, split'⟩
    · exact opening hosted answers
    · rw [List.flatMap_append] at answers
      obtain ⟨_, same, later⟩ := hosted.reacted answers ((off.onReaction ..).of_mem handled)
      cases offered.symm.trans same
      exact ih (hosted.served ..) split' later

section

variable (menu) (passed queue : List QueuedReaction) {left : List QueuedReaction}
  (others : ∀ q ∈ passed, q.isFor menu.message.id = false)
include others

theorem none_of_offer
    (offered : Memory.offer menu.message.id menu.qualifies (passed ++ queue) = (none, left)) :
    queue.filter menu.counts = [] ∧ left = passed ++ queue.filter (!·.isFor menu.message.id) := by
  rw [Memory.offer_append others] at offered
  rcases Memory.offer_cases menu.message.id menu.qualifies queue with ⟨none, same⟩ | ⟨_, _, _, _, _, _, same⟩
  · rw [same] at offered
    cases offered
    exact ⟨none, rfl⟩
  · rw [same] at offered
    cases offered

theorem first_of_offer {event : Reaction}
    (offered : Memory.offer menu.message.id menu.qualifies (passed ++ queue) = (some event, left)) :
    ∃ front q back, queue = front ++ [q] ++ back ∧ event = q.seenOn menu.message.id ∧ menu.counts q = true ∧
      (front ++ [q]).filter menu.counts = [q] ∧
      left = passed ++ (front ++ [q]).filter (!·.isFor menu.message.id) ++ back := by
  rw [Memory.offer_append others] at offered
  rcases Memory.offer_cases menu.message.id menu.qualifies queue with
    ⟨_, same⟩ | ⟨front, q, back, split, none, wanted, same⟩
  · rw [same] at offered
    cases offered
  · rw [same] at offered
    cases offered
    have counted : menu.counts q = true := wanted
    have before : front.filter menu.counts = [] := none
    have mine : q.isFor menu.message.id = true := (Bool.and_eq_true_iff.mp wanted).1
    refine ⟨front, q, back, ?_, rfl, counted, ?_, ?_⟩
    · rw [split, List.append_assoc]
      rfl
    · simp [before, counted]
    · simp [mine]

end

/-- What rounds do that go through a queue from the front, behind `passed`, and take out of it what may go to the message
of the menu. They stop right behind an entry that makes up a round, or at the end when they time out. -/
structure Consumed (menu : Menu σ) (past : Nat) (passed front back : List QueuedReaction) (m : Memory)
    (moves : List (Move σ)) (stop : Stop σ) (after : Memory) : Prop where
  queued : after.queued = passed ++ front.filter (!·.isFor menu.message.id) ++ back
  handed : moves.filterMap Move.handed? = (front.filter menu.counts).map (·.seenOn menu.message.id)
  removed : after.removed = m.removed ++ (front.filter menu.counts).map fun q => (menu.message.id, q.emoji, q.user)
  count : stop.rounds = past + (front.filter menu.counts).length
  all : stop.termination = .timedOut → back = []
  last : stop.termination ≠ .timedOut → front = [] ∨ ∃ before q, front = before ++ [q] ∧ menu.counts q = true

/-- One more round in front. -/
theorem Consumed.behind {passed before front back queue : List QueuedReaction} {q : QueuedReaction} {next : σ}
    {during : List Exchange} (counted : menu.counts q = true) (one : (before ++ [q]).filter menu.counts = [q])
    (rest : menu.Consumed (past + 1) (passed ++ (before ++ [q]).filter (!·.isFor menu.message.id)) front back
      (menu.served m (q.seenOn menu.message.id) queue) moves stop after) :
    menu.Consumed past passed (before ++ [q] ++ front) back m
      (menu.upTo (q.seenOn menu.message.id) ++
        .reaction state (q.seenOn menu.message.id) during next (.ok .proceed) :: moves) stop after := by
  have entries : (before ++ [q] ++ front).filter menu.counts = q :: front.filter menu.counts := by
    rw [List.filter_append, one, List.singleton_append]
  constructor
  case queued =>
    rw [rest.queued, List.filter_append (before ++ [q])]
    simp only [List.append_assoc]
  case handed =>
    rw [entries]
    exact congrArg _ rest.handed
  case removed =>
    rw [rest.removed, entries]
    exact List.append_assoc ..
  case count => rw [rest.count, entries, List.length_cons, Nat.add_assoc, Nat.add_comm 1]
  case all => exact rest.all
  case last =>
    intro other
    rcases rest.last other with rfl | ⟨before', x, rfl, counted'⟩
    · exact .inr ⟨before, q, List.append_nil _, counted⟩
    · exact .inr ⟨before ++ [q] ++ before', x, (List.append_assoc ..).symm, counted'⟩

theorem Rounds.consumed (rounds : menu.Rounds left past active state m moves stop after)
    (passed queue : List QueuedReaction) (queued : m.queued = passed ++ queue)
    (others : ∀ q ∈ passed, q.isFor menu.message.id = false) :
    ∃ front back, queue = front ++ back ∧ menu.Consumed past passed front back m moves stop after := by
  induction rounds generalizing passed queue with
  | exhausted =>
    refine ⟨[], queue, rfl, ?_, rfl, (List.append_nil _).symm, rfl, nofun, fun _ => .inl rfl⟩
    rw [queued, List.filter_nil, List.append_nil]
  | timedOut offered =>
    rw [queued] at offered
    obtain ⟨nothing, rfl⟩ := none_of_offer menu passed queue others offered
    refine ⟨queue, [], (List.append_nil _).symm, (List.append_nil _).symm, ?_, ?_, ?_, fun _ => rfl,
      fun other => absurd rfl other⟩
    · rw [nothing]
      rfl
    · rw [nothing]
      exact (List.append_nil _).symm
    · rw [nothing]
      rfl
  | ended offered _ ends =>
    rw [queued] at offered
    obtain ⟨front, q, back, rfl, rfl, counted, one, rfl⟩ := first_of_offer menu passed queue others offered
    refine ⟨front ++ [q], back, rfl, rfl, ?_, ?_, ?_, fun timedOut => ?_, fun _ => .inr ⟨front, q, rfl, counted⟩⟩
    · rw [one]
      rfl
    · rw [one]
      rfl
    · rw [one]
      rfl
    · obtain rfl : _ = Termination.timedOut := timedOut
      cases Move.ends?_eq_timedOut_iff.mp ends
  | continued offered _ _ ih =>
    rw [queued] at offered
    obtain ⟨front, q, back, rfl, rfl, counted, one, rfl⟩ := first_of_offer menu passed queue others offered
    have others' : ∀ x ∈ passed ++ (front ++ [q]).filter (!·.isFor menu.message.id),
        x.isFor menu.message.id = false := by
      refine List.forall_mem_append.mpr ⟨others, fun x member => ?_⟩
      simpa using (List.mem_filter.mp member).2
    obtain ⟨front', back', rfl, rest⟩ := ih _ _ rfl others'
    exact ⟨front ++ [q] ++ front', back', (List.append_assoc ..).symm, rest.behind counted one⟩

/-- All callbacks but the last want to go on. The rounds end with the last one exactly when it does not. -/
theorem Rounds.reacted (rounds : menu.Rounds left past active state m moves stop after) :
    (∃ before last, moves.filterMap Move.reacted? = before ++ [last] ∧ last ≠ .ok .proceed ∧
        (∀ answer ∈ before, answer = .ok .proceed) ∧
        stop.termination ≠ .timedOut ∧ stop.termination ≠ .roundBudgetExhausted) ∨
      (∀ answer ∈ moves.filterMap Move.reacted?, answer = .ok .proceed) ∧
        (stop.termination = .timedOut ∨ stop.termination = .roundBudgetExhausted) := by
  induction rounds with
  | exhausted => exact .inr ⟨List.forall_mem_nil _, .inr rfl⟩
  | timedOut => exact .inr ⟨List.forall_mem_nil _, .inl rfl⟩
  | @ended _ _ _ _ _ _ _ _ _ answer _ _ _ ends =>
    refine .inl ⟨[], answer, rfl, ?_, List.forall_mem_nil _, ?_, ?_⟩
    · rintro rfl
      cases ends
    · rintro rfl
      cases Move.ends?_eq_timedOut_iff.mp ends
    · rintro rfl
      rcases answer with e | _ | _ <;> cases ends
  | continued _ _ _ ih =>
    rcases ih with ⟨before, last, answers, stops, each, early⟩ | ⟨each, late⟩
    · exact .inl ⟨.ok .proceed :: before, last, congrArg _ answers, stops, List.forall_mem_cons.mpr ⟨rfl, each⟩, early⟩
    · exact .inr ⟨List.forall_mem_cons.mpr ⟨rfl, each⟩, late⟩

/-- A wait is in vain in rounds that time out, and in no others. -/
theorem Rounds.timedOut_iff (rounds : menu.Rounds left past active state m moves stop after) :
    .ok none ∈ moves.filterMap Move.waited? ↔ stop.termination = .timedOut := by
  induction rounds with
  | exhausted => exact ⟨nofun, nofun⟩
  | timedOut => exact ⟨fun _ => rfl, fun _ => List.mem_singleton_self _⟩
  | ended _ _ ends =>
    refine ⟨nofun, fun timedOut => ?_⟩
    obtain rfl : _ = Termination.timedOut := timedOut
    cases Move.ends?_eq_timedOut_iff.mp ends
  | continued _ _ _ ih =>
    rw [← ih]
    refine ⟨fun member => ?_, List.mem_cons_of_mem _⟩
    rcases List.mem_cons.mp member with same | later
    · cases same
    · exact later

theorem Rounds.rounds_le_length (rounds : menu.Rounds left past active state m moves stop after) :
    stop.rounds ≤ past + (m.queued.filter menu.counts).length ∧
      (stop.termination = .timedOut → stop.rounds = past + (m.queued.filter menu.counts).length) := by
  obtain ⟨front, back, split, consumed⟩ := rounds.consumed [] m.queued rfl (List.forall_mem_nil _)
  rw [split, List.filter_append, List.length_append, consumed.count]
  refine ⟨by omega, fun timedOut => ?_⟩
  rw [consumed.all timedOut, List.filter_nil, List.length_nil, Nat.add_zero]

section

variable (rounds : menu.Rounds left past active state m moves stop after)
  (plays : menu.Plays left past active state moves stop)
include rounds plays

/-- Rounds that the handler does not end use up the queue or the budget. -/
theorem Rounds.rounds_of_late (late : stop.termination = .timedOut ∨ stop.termination = .roundBudgetExhausted) :
    stop.rounds = past + min left (m.queued.filter menu.counts).length := by
  obtain ⟨most, spent, _⟩ := plays.rounds_le
  obtain ⟨few, vain⟩ := rounds.rounds_le_length
  rcases late with timedOut | exhausted
  · have all := vain timedOut
    omega
  · have full := spent exhausted
    omega

theorem Rounds.timedOut_iff_fewer :
    stop.termination = .timedOut ↔
      (∀ answer ∈ moves.filterMap Move.reacted?, answer = .ok .proceed) ∧
        (m.queued.filter menu.counts).length < left := by
  obtain ⟨_, spent, spared⟩ := plays.rounds_le
  obtain ⟨few, vain⟩ := rounds.rounds_le_length
  rcases rounds.reacted with ⟨before, wish, answers, stops, _, early, _⟩ | ⟨each, late⟩
  · refine ⟨fun timedOut => absurd timedOut early, fun ⟨each, _⟩ => absurd (each wish ?_) stops⟩
    rw [answers]
    exact List.mem_concat_self ..
  · constructor
    · intro timedOut
      have all := vain timedOut
      have unused := spared timedOut
      exact ⟨each, by omega⟩
    · rintro ⟨_, fewer⟩
      refine late.resolve_right fun exhausted => ?_
      have full := spent exhausted
      omega

end

end

/-- What a menu does to a platform that it has for itself, and when it ends. -/
structure Consumes (menu : Menu σ) (m : Memory) (moves : List (Move σ)) (ending : Ending σ) (after : Memory) : Prop where
  handed : moves.filterMap Move.handed? =
    ((m.queued.filter menu.counts).take ending.rounds).map (·.seenOn menu.message.id)
  removed : after.removed = m.removed ++
    ((m.queued.filter menu.counts).take ending.rounds).map fun q => (menu.message.id, q.emoji, q.user)
  reacted : (moves.filterMap Move.reacted?).length = ending.rounds
  bounded : ending.rounds ≤ min (menu.options.maxRounds?.getD unlimited) (m.queued.filter menu.counts).length
  stopped : (∃ before last, moves.filterMap Move.reacted? = before ++ [last] ∧ last ≠ .ok .proceed ∧
      ∀ answer ∈ before, answer = .ok .proceed) ∨
    (∀ answer ∈ moves.filterMap Move.reacted?, answer = .ok .proceed) ∧
      ending.rounds = min (menu.options.maxRounds?.getD unlimited) (m.queued.filter menu.counts).length
  timedOut : .ok none ∈ moves.filterMap Move.waited? ↔
    (∀ answer ∈ moves.filterMap Move.reacted?, answer = .ok .proceed) ∧
      (m.queued.filter menu.counts).length < menu.options.maxRounds?.getD unlimited
  queued : ∃ front back, m.queued = front ++ back ∧
    after.queued = front.filter (!·.isFor menu.message.id) ++ back ∧
    front.filter menu.counts = (m.queued.filter menu.counts).take ending.rounds ∧
    (.ok none ∈ moves.filterMap Move.waited? → back = []) ∧
    (.ok none ∉ moves.filterMap Move.waited? → front = [] ∨ ∃ before q, front = before ++ [q] ∧ menu.counts q = true)
  others : after.queued.filter (!·.isFor menu.message.id) = m.queued.filter (!·.isFor menu.message.id)
  idle : menu.options.maxRounds? = some 0 → after = m
  emojis : ∀ {before answer later between}, moves = before ++ menu.awaiting answer :: later →
    m.Answers (before.flatMap Move.exchanges) between →
    between.reactionsOn menu.message.id = menu.emojis.eraseDups

theorem Rounds.consumes {initial state : σ} {moves : List (Move σ)} {stop : Stop σ} {during : List Exchange}
    {answer : Except ChatError Unit} {budget : Nat} (same : menu.options.maxRounds?.getD unlimited = budget)
    (rounds : menu.Rounds budget 0 false initial m moves stop after)
    (plays : menu.Plays budget 0 false initial moves stop) (hosted : menu.Hosted m)
    (off : menu.handler.Asks Request.OffPlatform) :
    menu.Consumes m (moves ++ [.farewell stop.state stop.termination during state answer])
      ⟨state, stop.rounds, outcome stop answer⟩ after := by
  obtain ⟨front, back, split, consumed⟩ := rounds.consumed [] m.queued rfl (List.forall_mem_nil _)
  have taken : (m.queued.filter menu.counts).take stop.rounds = front.filter menu.counts := by
    rw [split, List.filter_append, consumed.count, Nat.zero_add, List.take_left]
  generalize parting : Move.farewell stop.state stop.termination during state answer = final
  have silent : ∀ {β : Type} {f : Move σ → Option β}, f final = Option.none →
      (moves ++ [final]).filterMap f = moves.filterMap f := by
    intro β f quiet
    rw [Memory.filterMap_concat, quiet, Option.toList_none, List.append_nil]
  have handings : (moves ++ [final]).filterMap Move.handed? = moves.filterMap Move.handed? := silent (parting ▸ rfl)
  have reactions : (moves ++ [final]).filterMap Move.reacted? = moves.filterMap Move.reacted? := silent (parting ▸ rfl)
  have waits : (moves ++ [final]).filterMap Move.waited? = moves.filterMap Move.waited? := silent (parting ▸ rfl)
  subst same
  constructor
  case handed => rw [handings, taken, consumed.handed]
  case removed => rw [taken, consumed.removed]
  case reacted => rw [reactions, ← plays.length_reacted?, Nat.zero_add]
  case bounded =>
    have most := plays.rounds_le.1
    have few := rounds.rounds_le_length.1
    rw [Nat.zero_add] at most few
    exact Nat.le_min.mpr ⟨most, few⟩
  case stopped =>
    rw [reactions]
    rcases rounds.reacted with ⟨before, wish, answers, stops, each, _⟩ | ⟨each, late⟩
    · exact .inl ⟨before, wish, answers, stops, each⟩
    · exact .inr ⟨each, (rounds.rounds_of_late plays late).trans (Nat.zero_add _)⟩
  case timedOut => rw [waits, reactions, rounds.timedOut_iff, rounds.timedOut_iff_fewer plays]
  case queued =>
    rw [waits, rounds.timedOut_iff]
    exact ⟨front, back, split, consumed.queued, taken.symm, consumed.all, consumed.last⟩
  case others =>
    rw [consumed.queued, split, List.nil_append, List.filter_append, List.filter_append, List.filter_filter]
    simp only [Bool.and_self]
  case idle =>
    intro budget
    rw [budget] at rounds
    cases rounds
    rfl
  case emojis =>
    intro before answer later between split' answers
    rcases List.eq_nil_or_concat' later with rfl | ⟨later', last, rfl⟩
    · cases parting.trans (List.singleton_inj.mp (List.append_inj' split' rfl).2)
    · rw [← List.cons_append, ← List.append_assoc] at split'
      exact rounds.reactionsOn hosted off (List.append_inj' split' rfl).1 answers

theorem consumes_of_runsOn {initial : σ} {ending : Ending σ} {now : Nat} (hosted : menu.Hosted m)
    (off : menu.handler.Asks Request.OffPlatform) (run : (menu.hold initial).RunsOn m now log ending after) :
    ∃ moves, log = moves.flatMap Move.exchanges ∧ menu.Holds initial moves ending ∧
      menu.Consumes m moves ending after := by
  obtain ⟨_, rfl, holds⟩ := held_hold_iff.mp run.held
  refine ⟨_, rfl, holds, ?_⟩
  have answered := run.answered
  cases holds with
  | farewell plays finished =>
    rw [List.flatMap_append] at answered
    obtain ⟨between, first, later⟩ := Memory.answers_append_iff.mp answered
    obtain rfl := later.eq_of_offPlatform fun e member => by
      rw [List.flatMap_singleton] at member
      exact (off.onFinish ..).of_mem finished e member
    exact (rounds_of_plays plays off hosted first).consumes rfl plays hosted off

/-- A menu that has the platform for itself goes through the queue entry by entry, whatever is queued and whatever its
handler says, unless it comes to a wait so late that no clock can show its end. -/
theorem hold_consumes_queue (menu : Menu σ) (initial : σ) {w : World} (calm : w.Calm) (hosted : menu.Hosted w.memory)
    (off : menu.handler.Asks Request.OffPlatform) (inTime : ¬ (menu.hold initial).Overruns w.memory w.now) :
    (menu.hold initial).Achieves w fun log ending after => ∃ moves, log = moves.flatMap Move.exchanges ∧
      menu.Holds initial moves ending ∧ menu.Consumes w.memory moves ending after := by
  have asks : (menu.hold initial).Asks Request.Immediate :=
    asks_hold (fun _ => nofun) (off.mono fun _ => Request.OffPlatform.immediate)
  exact asks.achieves calm inTime (consumes_of_runsOn hosted off)

/-- Reactions to two messages. The first that counts for the menu of one round comes fourth. -/
def crowded : Memory :=
  { Memory.new "0" with
    live := [(once.message.id, once.message)]
    queued := [⟨some "8", "a", "ann", false⟩, ⟨some "7", "x", "ann", false⟩, ⟨none, "b", "0", true⟩,
      ⟨none, "b", "bob", false⟩, ⟨some "8", "b", "bob", false⟩, ⟨some "7", "a", "ann", false⟩] }

theorem hosted_crowded : once.Hosted crowded where
  live := by
    rw [Memory.IsLive]
    decide +kernel
  permitted := by decide +kernel

/-- The menu takes a minute at the most, and is over after one round. -/
theorem hold_consumes_queue_crowded :
    ¬ (once.hold none).Overruns crowded 0 ∧ once.Hosted crowded ∧ once.handler.Asks Request.OffPlatform ∧
      ∃ turns after ending log moves,
        (∀ more, turns ≤ more → Session.run more { world := { memory := crowded }, ready := [.main (once.hold none) none] } =
          after) ∧
        after.result? = some ending ∧ log = moves.flatMap Move.exchanges ∧
        once.Consumes crowded moves ending after.world.memory ∧ ending.rounds = 1 ∧
        moves.filterMap Move.handed? = [⟨"7", "b", "bob", false⟩] ∧ after.world.memory.removed = [("7", "b", "bob")] ∧
        after.world.memory.queued.filter (!·.isFor "7") =
          [⟨some "8", "a", "ann", false⟩, ⟨some "8", "b", "bob", false⟩] := by
  have inTime : ¬ (once.hold none).Overruns crowded 0 := (hasty_hold asks_chooser).not_overruns (by decide +kernel)
  have achieves := hold_consumes_queue once none (w := { memory := crowded }) ⟨rfl, rfl⟩ hosted_crowded asks_chooser inTime
  obtain ⟨turns, after, ending, log, rests, ended, run⟩ := achieves.sessions
  obtain ⟨moves, same, _, facts⟩ := achieves.holds run
  have entries : crowded.queued.filter once.counts = [⟨none, "b", "bob", false⟩, ⟨some "7", "a", "ann", false⟩] := by
    decide +kernel
  have bounded := facts.bounded
  have rounds : ending.rounds = 1 := by
    have listed : { memory := crowded : World }.memory.queued.filter once.counts = _ := entries
    rw [listed] at bounded
    rcases facts.stopped with ⟨before, last, answers, _⟩ | ⟨_, most⟩
    · have count := facts.reacted
      rw [answers, List.length_append, List.length_singleton] at count
      have most : ending.rounds ≤ 1 := bounded
      omega
    · rw [most, listed]
      rfl
  have handed := facts.handed
  have removed := facts.removed
  rw [entries, rounds] at handed removed
  refine ⟨inTime, hosted_crowded, asks_chooser, turns, after, ending, log, moves, rests, ended, same, facts, rounds,
    handed, removed, ?_⟩
  exact facts.others.trans (by decide +kernel)

/-- A menu whose wait would end too late comes no further than to its first wait. -/
theorem advance_hold_of_late {initial : σ} {w : World} (calm : w.Calm) (hosted : menu.Hosted w.memory)
    (budget : menu.options.maxRounds? ≠ some 0) (late : World.clockEnd ≤ w.now + menu.options.timeout) :
    (menu.hold initial).advance w = (.crashed, [], { w with memory := menu.prepared w.memory }) := by
  have one : ∃ left, menu.options.maxRounds?.getD unlimited = left + 1 := by
    refine Nat.exists_eq_succ_of_ne_zero fun none => ?_
    cases most : menu.options.maxRounds? with
    | none =>
      rw [most] at none
      cases none
    | some rounds =>
      rw [most] at none budget
      exact budget (congrArg some none)
  obtain ⟨left, one⟩ := one
  have bared : World.Calm { w with memory := menu.bare w.memory } := ⟨calm.faults, calm.intact⟩
  have readied : World.Calm { w with memory := menu.prepared w.memory } := ⟨calm.faults, calm.intact⟩
  have cleared : w.perform (.clearReactions menu.message) = (.ok (), { w with memory := menu.bare w.memory }) := by
    rw [Memory.perform_eq, World.onMemory, hosted.respond_clear]
  have set : World.perform { w with memory := menu.bare w.memory } (.setReactions menu.message menu.emojis) =
      (.ok (), { w with memory := menu.prepared w.memory }) := by
    rw [Memory.perform_eq, World.onMemory, hosted.respond_set]
  rw [hold, one]
  refine (advance_of_perform calm rfl cleared).trans ?_
  refine (advance_of_perform bared rfl set).trans ?_
  exact advance_of_late readied rfl late

/-- Settings under which a menu waits for longer than clocks go. -/
def endlessText : String := "\x7b\"owner\":\"100\",\"menu_timeout_secs\":18446744073709551615\x7d"

/-- The menu of one round, under these settings. -/
def endless : Menu (Option String) :=
  ⟨once.message, once.emojis, chooser, ⟨18446744073709551615 * 1000, some 1, fun _ => true⟩⟩

/-- The settings are accepted, and under them a menu for which reactions are queued comes to no outcome. None of them is
handed out, and nothing is taken from the queue. -/
theorem accepted_menu_overruns :
    (∃ settings, Config.ofText endlessText = .ok settings ∧ endless.options.timeout = settings.menuTimeout * 1000) ∧
    endless.Hosted crowded ∧ endless.handler.Asks Request.OffPlatform ∧
    crowded.queued.filter endless.counts = [⟨none, "b", "bob", false⟩, ⟨some "7", "a", "ann", false⟩] ∧
    ({ world := { memory := crowded } } : Session (Ending (Option String))).hold (endless.hold none) =
      (none, { world := { memory := endless.prepared crowded, crashed := true } }) ∧
    (endless.prepared crowded).queued = crowded.queued ∧ (endless.prepared crowded).removed = [] := by
  have read : Config.ofText endlessText = .ok { owner := "100", menuTimeout := 18446744073709551615 } := by
    decide +kernel
  have hosted : endless.Hosted crowded := ⟨hosted_crowded.live, hosted_crowded.permitted⟩
  have late : World.clockEnd ≤ 0 + endless.options.timeout := by decide +kernel
  have calm : World.Calm { memory := crowded } := ⟨rfl, rfl⟩
  refine ⟨⟨_, read, rfl⟩, hosted, asks_chooser, by decide +kernel, ?_, rfl, rfl⟩
  exact Session.hold_of_crashed (advance_hold_of_late calm hosted nofun late)

end ChatCommands.Menu
