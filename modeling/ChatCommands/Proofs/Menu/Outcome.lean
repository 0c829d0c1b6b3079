import ChatCommands.Proofs.Menu.Course

namespace ChatCommands.Menu

variable {σ : Type}

namespace Move

/-- What a callback for a reaction comes to. -/
def reacted? : Move σ → Option (Except ChatError Wish)
  | reaction _ _ _ _ answer => some answer
  | _ => none

/-- What a wait for a reaction comes to. -/
def waited? : Move σ → Option (Except ChatError (Option Reaction))
  | call ⟨.chat (.awaitReaction _ _ _), answer⟩ => some answer
  | _ => none

/-- What a farewell comes to. -/
def parted? : Move σ → Option (Except ChatError Unit)
  | farewell _ _ _ _ answer => some answer
  | _ => none

/-- The error of a call or of a callback for a reaction. The farewell can fail as well, but not in a round. -/
def failure? : Move σ → Option ChatError
  | call ⟨.chat _, .error e⟩ => some e
  | reaction _ _ _ _ (.error e) => some e
  | _ => none

/-- Belongs to the preparation of a round. -/
def prepares : Move σ → Bool
  | call ⟨.chat (.clearReactions _), _⟩ => true
  | call ⟨.chat (.setReactions _ _), _⟩ => true
  | _ => false

/-- Brings the preparation of a round to its end. -/
def readies : Move σ → Bool
  | call ⟨.chat (.setReactions _ _), .ok _⟩ => true
  | _ => false

/-- The way in which a move ends the rounds, if it does. -/
def ends? (m : Move σ) : Option Termination :=
  match m.failure?, m.waited?, m.reacted? with
  | some e, _, _ => some (.failed e)
  | none, some (.ok none), _ => some .timedOut
  | none, _, some (.ok .finish) => some .completed
  | none, _, _ => none

end Move

/-- A preparation fails, and no round has been prepared before. -/
def FailsToStart (moves : List (Move σ)) (e : ChatError) : Prop :=
  ∃ before m after, moves = before ++ m :: after ∧ m.failure? = some e ∧ m.prepares = true ∧
    before.any Move.readies = false

/-- A later preparation fails, or a wait, a removal or a callback for a reaction. -/
def FailsLater (moves : List (Move σ)) (e : ChatError) : Prop :=
  ∃ before m after, moves = before ++ m :: after ∧ m.failure? = some e ∧
    (m.prepares = true → before.any Move.readies = true)

def Unfailing (moves : List (Move σ)) : Prop := ∀ m ∈ moves, m.failure? = none

/-- The callbacks of a menu are as many as they should be, and its outcome is the one that its moves cause. -/
structure EndsAsCaused (menu : Menu σ) (moves : List (Move σ)) (ending : Ending σ) : Prop where
  parts_once : ∃ rounds last, moves = rounds ++ [last] ∧ last.parted?.isSome = true ∧
    ∀ m ∈ rounds, m.parted? = none
  reactions : (moves.filterMap Move.reacted?).length = ending.rounds
  budget : ∀ most, menu.options.maxRounds? = some most → ending.rounds ≤ most
  start : ∀ e, ending.outcome = .error (.start e) ↔ FailsToStart moves e
  round : ∀ e, ending.outcome = .error (.round e) ↔ FailsLater moves e
  finish : ∀ e, ending.outcome = .error (.finish e) ↔
    Unfailing moves ∧ moves.filterMap Move.parted? = [.error e]
  completed : ending.outcome = .ok .completed ↔
    Unfailing moves ∧ moves.filterMap Move.parted? = [.ok ()] ∧
      (moves.filterMap Move.reacted?).getLast? = some (.ok .finish)
  timedOut : ending.outcome = .ok .timedOut ↔
    Unfailing moves ∧ moves.filterMap Move.parted? = [.ok ()] ∧
      (moves.filterMap Move.waited?).getLast? = some (.ok none)
  exhausted : ending.outcome = .ok .roundBudgetExhausted ↔
    Unfailing moves ∧ moves.filterMap Move.parted? = [.ok ()] ∧
      menu.options.maxRounds? = some ending.rounds ∧ .ok .finish ∉ moves.filterMap Move.reacted?
  exhaustive : (∃ e, ending.outcome = .error (.start e)) ∨ (∃ e, ending.outcome = .error (.round e)) ∨
    (∃ e, ending.outcome = .error (.finish e)) ∨ ending.outcome = .ok .completed ∨
    ending.outcome = .ok .timedOut ∨ ending.outcome = .ok .roundBudgetExhausted

namespace Move

variable {m : Move σ}

theorem ends?_eq_failed_iff {e : ChatError} : m.ends? = some (.failed e) ↔ m.failure? = some e := by
  unfold ends?
  split <;> simp_all

theorem readies_of_fails {e : ChatError} (fails : m.failure? = some e) : m.readies = false := by
  unfold failure? at fails
  split at fails
  · rename_i call _
    cases call <;> rfl
  · rfl
  · cases fails

theorem ends?_eq_timedOut_iff : m.ends? = some .timedOut ↔ m.waited? = some (.ok none) := by
  constructor
  · unfold ends?
    split <;> simp_all
  · intro waited
    unfold waited? at waited
    split at waited
    · cases waited
      rfl
    · cases waited

theorem ends?_eq_completed_iff : m.ends? = some .completed ↔ m.reacted? = some (.ok .finish) := by
  constructor
  · unfold ends?
    split <;> simp_all
  · intro reacted
    unfold reacted? at reacted
    split at reacted
    · cases reacted
      rfl
    · cases reacted

end Move

/-- Rounds that end with the first of their moves that ends them, or else for want of further rounds. -/
inductive Closes : List (Move σ) → Termination → Prop
  | spent : Closes [] .roundBudgetExhausted
  | last {m termination} : m.ends? = some termination → Closes [m] termination
  | next {m moves termination} : m.ends? = none → Closes moves termination → Closes (m :: moves) termination

namespace Closes

variable {moves : List (Move σ)} {termination : Termination}

theorem cases_last (closes : Closes moves termination) :
    termination = .roundBudgetExhausted ∨ ∃ before m, moves = before ++ [m] ∧ m.ends? = some termination := by
  induction closes with
  | spent => exact .inl rfl
  | last ends => exact .inr ⟨[], _, rfl, ends⟩
  | @next m _ _ _ _ ih =>
    refine ih.imp_right ?_
    rintro ⟨before, last, rfl, ends⟩
    exact ⟨m :: before, last, rfl, ends⟩

/-- Where a move ends the rounds, they have come to their end. -/
theorem eq_of_split (closes : Closes moves termination) {final m : Move σ} {before after : List (Move σ)}
    {t : Termination} (quiet : final.ends? = none) (split : moves ++ [final] = before ++ m :: after)
    (ends : m.ends? = some t) : moves = before ++ [m] ∧ termination = t := by
  have beyond (l : List (Move σ)) : [final] ≠ l ++ m :: after := by
    intro same
    have member : m ∈ [final] := same ▸ List.mem_append_right l (List.mem_cons_self ..)
    rw [List.mem_singleton.mp member, quiet] at ends
    cases ends
  induction closes generalizing before with
  | spent => exact absurd split (beyond before)
  | last here =>
    cases before with
    | nil =>
      obtain ⟨rfl, _⟩ := List.cons.inj split
      exact ⟨rfl, Option.some.inj (here.symm.trans ends)⟩
    | cons b before => exact absurd (List.cons.inj split).2 (beyond before)
  | next goes _ ih =>
    cases before with
    | nil =>
      obtain ⟨rfl, _⟩ := List.cons.inj split
      rw [goes] at ends
      cases ends
    | cons b before =>
      obtain ⟨rfl, later⟩ := List.cons.inj split
      obtain ⟨rfl, same⟩ := ih later
      exact ⟨rfl, same⟩

variable {final : Move σ}

theorem eq_of_mem (closes : Closes moves termination) (quiet : final.ends? = none) {m : Move σ}
    (member : m ∈ moves ++ [final]) {t : Termination} (ends : m.ends? = some t) : termination = t := by
  obtain ⟨before, after, split⟩ := List.append_of_mem member
  exact (closes.eq_of_split quiet split ends).2

/-- The last of the answers of one kind tells whether the rounds ended in a way that shows in such answers. -/
theorem getLast?_eq_iff (closes : Closes moves termination) (quiet : final.ends? = none) {β : Type}
    {answer? : Move σ → Option β} {answer : β} {t : Termination}
    (tells : ∀ m, m.ends? = some t ↔ answer? m = some answer) (none : answer? final = none)
    (early : t ≠ .roundBudgetExhausted) :
    ((moves ++ [final]).filterMap answer?).getLast? = some answer ↔ termination = t := by
  constructor
  · intro last
    obtain ⟨m, member, answered⟩ := List.mem_filterMap.mp (List.mem_of_getLast? last)
    exact closes.eq_of_mem quiet member ((tells m).mpr answered)
  · rintro rfl
    obtain ⟨before, m, rfl, ends⟩ := closes.cases_last.resolve_left early
    rw [List.filterMap_append, List.filterMap_append, List.filterMap_cons_some ((tells m).mp ends),
      List.filterMap_cons_none none, List.filterMap_nil, List.append_nil]
    exact List.getLast?_concat

end Closes

namespace Plays

variable {menu : Menu σ} {left past : Nat} {active : Bool} {state : σ} {moves : List (Move σ)} {stop : Stop σ}

theorem closes (plays : menu.Plays left past active state moves stop) : Closes moves stop.termination := by
  induction plays with
  | exhausted => exact .spent
  | uncleared => exact .last rfl
  | unset => exact .next rfl (.last rfl)
  | unawaited | timedOut => exact .next rfl (.next rfl (.last rfl))
  | unremoved => exact .next rfl (.next rfl (.next rfl (.last rfl)))
  | failed | completed => exact .next rfl (.next rfl (.next rfl (.next rfl (.last rfl))))
  | continued _ _ ih => exact .next rfl (.next rfl (.next rfl (.next rfl (.next rfl ih))))

theorem parted?_eq_nil (plays : menu.Plays left past active state moves stop) :
    moves.filterMap Move.parted? = [] := by
  induction plays with
  | exhausted | uncleared | unset | unawaited | timedOut | unremoved | failed | completed => rfl
  | continued _ _ ih => exact ih

theorem length_reacted? (plays : menu.Plays left past active state moves stop) :
    past + (moves.filterMap Move.reacted?).length = stop.rounds := by
  induction plays with
  | exhausted | uncleared | unset | unawaited | timedOut | unremoved | failed | completed => rfl
  | @continued _ past _ _ _ _ _ moves _ _ _ ih =>
    rw [← ih, Nat.add_assoc, Nat.add_comm 1]
    rfl

/-- Rounds are left over unless they have been used up. -/
theorem rounds_le (plays : menu.Plays left past active state moves stop) :
    stop.rounds ≤ past + left ∧ (stop.termination = .roundBudgetExhausted → stop.rounds = past + left) ∧
      (stop.termination = .timedOut → stop.rounds < past + left) := by
  induction plays with
  | exhausted => simp
  | uncleared | unset | unawaited | timedOut | unremoved | failed | completed => simp
  | continued _ _ ih =>
    rw [Nat.add_right_comm] at ih
    exact ih

theorem active_eq (plays : menu.Plays left past active state moves stop) :
    stop.active = (active || moves.any Move.readies) := by
  induction plays with
  | exhausted | uncleared | unset => exact (Bool.or_false _).symm
  | unawaited | timedOut | unremoved | failed | completed => exact (Bool.or_true _).symm
  | continued _ _ ih => exact ih.trans (Bool.or_true _).symm

/-- Only a preparation can fail before a round has been prepared. -/
theorem prepares_of_inactive (plays : menu.Plays left past active state moves stop) (idle : stop.active = false)
    {before : List (Move σ)} {m : Move σ} (split : moves = before ++ [m]) : m.prepares = true := by
  have same (l : List (Move σ)) (last : Move σ) (equal : l ++ [last] = before ++ [m]) : last = m :=
    (List.append_inj' equal rfl).2 |> List.singleton_inj.mp
  induction plays with
  | exhausted => cases before <;> cases split
  | uncleared => exact same [] _ split ▸ rfl
  | unset => exact same [_] _ split ▸ rfl
  | unawaited | timedOut | unremoved | failed | completed => cases idle
  | continued _ later =>
    rw [later.active_eq] at idle
    cases idle

end Plays

section

variable {stop : Stop σ} {answer : Except ChatError Unit} {e : ChatError}

theorem outcome_eq_start_iff :
    outcome stop answer = .error (.start e) ↔ stop.termination = .failed e ∧ stop.active = false := by
  unfold outcome
  split <;> cases _ : stop.active <;> simp_all

theorem outcome_eq_round_iff :
    outcome stop answer = .error (.round e) ↔ stop.termination = .failed e ∧ stop.active = true := by
  unfold outcome
  split <;> cases _ : stop.active <;> simp_all

theorem outcome_eq_finish_iff :
    outcome stop answer = .error (.finish e) ↔ (∀ e, stop.termination ≠ .failed e) ∧ answer = .error e := by
  unfold outcome
  split <;> cases _ : stop.active <;> simp_all

theorem outcome_eq_ok_iff {t : Termination} :
    outcome stop answer = .ok t ↔
      (∀ e, stop.termination ≠ .failed e) ∧ answer = .ok () ∧ stop.termination = t := by
  unfold outcome
  split <;> simp_all

theorem outcome_cases (stop : Stop σ) (answer : Except ChatError Unit) :
    (∃ e, outcome stop answer = .error (.start e)) ∨ (∃ e, outcome stop answer = .error (.round e)) ∨
      (∃ e, outcome stop answer = .error (.finish e)) ∨ outcome stop answer = .ok .completed ∨
      outcome stop answer = .ok .timedOut ∨ outcome stop answer = .ok .roundBudgetExhausted := by
  rcases stop with ⟨state, rounds, _ | _, _ | _ | _ | _⟩ <;> cases answer <;> simp [outcome]

end

section

variable {menu : Menu σ} {left past : Nat} {state : σ} {rounds : List (Move σ)} {final : Move σ}
variable {stop : Stop σ} {e : ChatError}

theorem Plays.unfailing_iff {active : Bool} (plays : menu.Plays left past active state rounds stop)
    (quiet : final.ends? = none) : Unfailing (rounds ++ [final]) ↔ ∀ e, stop.termination ≠ .failed e := by
  constructor
  · intro unfailing e failed
    obtain ⟨before, m, split, ends⟩ := plays.closes.cases_last.resolve_left (failed ▸ nofun)
    have none := unfailing m (split ▸ List.mem_append_left _ (List.mem_concat_self ..))
    rw [Move.ends?_eq_failed_iff.mp (ends.trans (congrArg some failed))] at none
    cases none
  · intro unfailed m member
    cases fails : m.failure? with
    | none => rfl
    | some e =>
      have failed := plays.closes.eq_of_mem quiet member (Move.ends?_eq_failed_iff.mpr fails)
      exact absurd failed (unfailed e)

/-- Where a move of the rounds fails, the rounds fail. -/
theorem Plays.failed_of_split (plays : menu.Plays left past false state rounds stop) (quiet : final.ends? = none)
    {before after : List (Move σ)} {m : Move σ} (split : rounds ++ [final] = before ++ m :: after)
    (fails : m.failure? = some e) :
    stop.termination = .failed e ∧ stop.active = before.any Move.readies ∧
      (stop.active = false → m.prepares = true) := by
  obtain ⟨whole, failed⟩ := plays.closes.eq_of_split quiet split (Move.ends?_eq_failed_iff.mpr fails)
  refine ⟨failed, ?_, fun idle => plays.prepares_of_inactive idle whole⟩
  have unready := Move.readies_of_fails fails
  rw [plays.active_eq, whole, List.any_append, List.any_cons, unready]
  simp

theorem Plays.exists_split (plays : menu.Plays left past false state rounds stop)
    (failed : stop.termination = .failed e) :
    ∃ before m after, rounds ++ [final] = before ++ m :: after ∧ m.failure? = some e := by
  obtain ⟨before, m, rfl, ends⟩ := plays.closes.cases_last.resolve_left (failed ▸ nofun)
  refine ⟨before, m, [final], List.append_assoc .., ?_⟩
  exact Move.ends?_eq_failed_iff.mp (ends.trans (congrArg some failed))

theorem Plays.failsToStart_iff (plays : menu.Plays left past false state rounds stop)
    (quiet : final.ends? = none) :
    FailsToStart (rounds ++ [final]) e ↔ stop.termination = .failed e ∧ stop.active = false := by
  constructor
  · rintro ⟨before, m, after, split, fails, _, idle⟩
    obtain ⟨failed, active, _⟩ := plays.failed_of_split quiet split fails
    exact ⟨failed, active.trans idle⟩
  · rintro ⟨failed, idle⟩
    obtain ⟨before, m, after, split, fails⟩ := plays.exists_split failed
    obtain ⟨_, active, prepares⟩ := plays.failed_of_split quiet split fails
    exact ⟨before, m, after, split, fails, prepares idle, active.symm.trans idle⟩

theorem Plays.failsLater_iff (plays : menu.Plays left past false state rounds stop)
    (quiet : final.ends? = none) :
    FailsLater (rounds ++ [final]) e ↔ stop.termination = .failed e ∧ stop.active = true := by
  constructor
  · rintro ⟨before, m, after, split, fails, later⟩
    obtain ⟨failed, active, prepares⟩ := plays.failed_of_split quiet split fails
    refine ⟨failed, Bool.of_not_eq_false fun idle => ?_⟩
    rw [later (prepares idle), idle] at active
    cases active
  · rintro ⟨failed, busy⟩
    obtain ⟨before, m, after, split, fails⟩ := plays.exists_split failed
    obtain ⟨_, active, _⟩ := plays.failed_of_split quiet split fails
    exact ⟨before, m, after, split, fails, fun _ => active.symm.trans busy⟩

/-- The rounds have used up the budget when they stop neither for a failure, nor in vain, nor as wished. -/
theorem Plays.exhausted_iff (plays : menu.Plays (menu.options.maxRounds?.getD unlimited) 0 false state rounds stop)
    (quiet : final.ends? = none) (few : stop.rounds < unlimited) (settled : ∀ e, stop.termination ≠ .failed e) :
    stop.termination = .roundBudgetExhausted ↔
      menu.options.maxRounds? = some stop.rounds ∧
        .ok .finish ∉ (rounds ++ [final]).filterMap Move.reacted? := by
  obtain ⟨_, spent, spared⟩ := plays.rounds_le
  rw [Nat.zero_add] at spent spared
  constructor
  · intro exhausted
    constructor
    · cases budget : menu.options.maxRounds? with
      | none =>
        rw [budget] at spent
        exact absurd (spent exhausted) (Nat.ne_of_lt few)
      | some most =>
        rw [budget] at spent
        exact congrArg some (spent exhausted).symm
    · intro wished
      obtain ⟨m, member, reacted⟩ := List.mem_filterMap.mp wished
      have completed := plays.closes.eq_of_mem quiet member (Move.ends?_eq_completed_iff.mpr reacted)
      rw [exhausted] at completed
      cases completed
  · rintro ⟨budget, unwished⟩
    rw [budget] at spared
    cases ended : stop.termination with
    | roundBudgetExhausted => rfl
    | failed e => exact absurd ended (settled e)
    | timedOut => exact absurd (spared ended) (Nat.lt_irrefl _)
    | completed =>
      obtain ⟨before, m, split, ends⟩ := plays.closes.cases_last.resolve_left (ended ▸ nofun)
      refine absurd (List.mem_filterMap.mpr ⟨m, ?_, Move.ends?_eq_completed_iff.mp (ends.trans ?_)⟩) unwished
      · exact split ▸ List.mem_append_left _ (List.mem_concat_self ..)
      · exact congrArg some ended

theorem Holds.endsAsCaused {moves : List (Move σ)} {ending : Ending σ} (holds : menu.Holds state moves ending)
    (few : ending.rounds < unlimited) : menu.EndsAsCaused moves ending := by
  cases holds with
  | @farewell rounds stop during after answer plays _ =>
    have parts (said : Except ChatError Unit) :
        (rounds ++ [Move.farewell stop.state stop.termination during after answer]).filterMap Move.parted? =
          [said] ↔ answer = said := by
      rw [List.filterMap_append, plays.parted?_eq_nil]
      exact List.singleton_inj
    have unfailing := plays.unfailing_iff
      (rfl : (Move.farewell stop.state stop.termination during after answer).ends? = none)
    exact {
      parts_once := ⟨rounds, _, rfl, rfl, List.filterMap_eq_nil_iff.mp plays.parted?_eq_nil⟩
      reactions := by
        rw [← plays.length_reacted?, List.filterMap_append, Nat.zero_add]
        exact congrArg List.length (List.append_nil _)
      budget := fun most budget => by
        have bound := plays.rounds_le.1
        rw [budget, Nat.zero_add] at bound
        exact bound
      start := fun e => outcome_eq_start_iff.trans (plays.failsToStart_iff rfl).symm
      round := fun e => outcome_eq_round_iff.trans (plays.failsLater_iff rfl).symm
      finish := fun e => by rw [outcome_eq_finish_iff, unfailing, parts]
      completed := by
        rw [outcome_eq_ok_iff, unfailing, parts,
          plays.closes.getLast?_eq_iff rfl (fun _ => Move.ends?_eq_completed_iff) rfl nofun]
      timedOut := by
        rw [outcome_eq_ok_iff, unfailing, parts,
          plays.closes.getLast?_eq_iff rfl (fun _ => Move.ends?_eq_timedOut_iff) rfl nofun]
      exhausted := by
        rw [outcome_eq_ok_iff, unfailing, parts]
        exact and_congr_right fun settled => and_congr_right fun _ => plays.exhausted_iff rfl few settled
      exhaustive := outcome_cases stop answer }

end

/-- However the platform answers, a menu ends as its moves cause. -/
theorem hold_ends_as_caused (menu : Menu σ) (initial : σ) {log : List Exchange} {ending : Ending σ}
    (run : (menu.hold initial).Held log ending) (few : ending.rounds < unlimited) :
    ∃ moves, log = moves.flatMap Move.exchanges ∧ menu.Holds initial moves ending ∧
      menu.EndsAsCaused moves ending := by
  obtain ⟨moves, same, holds⟩ := held_hold_iff.mp run
  exact ⟨moves, same, holds, holds.endsAsCaused few⟩

/-- A menu of a single round. -/
def once : Menu (Option String) :=
  ⟨⟨"7", "hall", "bot", true, "pick"⟩, ["a", "b"], chooser, ⟨60000, some 1, fun _ => true⟩⟩

/-- The exchanges of a menu whose only round brings it to its end. -/
def chosen : List Exchange :=
  [⟨.chat (.clearReactions once.message), .ok ()⟩, ⟨.chat (.setReactions once.message once.emojis), .ok ()⟩,
    ⟨.chat (.awaitReaction once.message once.qualifies 60000), .ok (some ⟨"7", "a", "ann", false⟩)⟩,
    ⟨.chat (.removeReaction once.message "a" "ann"), .ok ()⟩]

theorem hold_ends_as_caused_once :
    (once.hold none).Held chosen ⟨some "a", 1, .ok .completed⟩ ∧ 1 < unlimited ∧
      ∃ moves, chosen = moves.flatMap Move.exchanges ∧ once.Holds none moves ⟨some "a", 1, .ok .completed⟩ ∧
        once.EndsAsCaused moves ⟨some "a", 1, .ok .completed⟩ := by
  have run : (once.hold none).Held chosen ⟨some "a", 1, .ok .completed⟩ := .ask (.ask (.ask (.ask .done)))
  exact ⟨run, by decide, hold_ends_as_caused once none run (by decide)⟩

end ChatCommands.Menu
