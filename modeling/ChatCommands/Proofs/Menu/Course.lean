import ChatCommands.Menu
import ChatCommands.Proofs.Chat.Run

namespace ChatCommands.Menu

open Conversation

variable {σ : Type}

/-- What a menu does, one thing after another: a call of its own, or a callback of its handler. During a
callback the handler has exchanges that are not the menu's. -/
inductive Move (σ : Type) where
  | call (exchange : Exchange)
  | reaction (state : σ) (event : Reaction) (during : List Exchange) (after : σ) (answer : Except ChatError Wish)
  | farewell (state : σ) (termination : Termination) (during : List Exchange) (after : σ)
      (answer : Except ChatError Unit)

def Move.exchanges : Move σ → List Exchange
  | call exchange => [exchange]
  | reaction _ _ during _ _ => during
  | farewell _ _ during _ _ => during

section

variable (menu : Menu σ)

def clearing (answer : Except ChatError Unit) : Move σ := .call ⟨.chat (.clearReactions menu.message), answer⟩

def setting (answer : Except ChatError Unit) : Move σ :=
  .call ⟨.chat (.setReactions menu.message menu.emojis), answer⟩

def awaiting (answer : Except ChatError (Option Reaction)) : Move σ :=
  .call ⟨.chat (.awaitReaction menu.message menu.qualifies menu.options.timeout), answer⟩

def removing (event : Reaction) (answer : Except ChatError Unit) : Move σ :=
  .call ⟨.chat (.removeReaction menu.message event.emoji event.user), answer⟩

/-- The moves of a round up to the callback. -/
def upTo (event : Reaction) : List (Move σ) :=
  [menu.clearing (.ok ()), menu.setting (.ok ()), menu.awaiting (.ok (some event)), menu.removing event (.ok ())]

/-- All that the rounds of a menu can come to, move by move. -/
inductive Plays : (left past : Nat) → Bool → σ → List (Move σ) → Stop σ → Prop
  | exhausted {past active state} : Plays 0 past active state [] ⟨state, past, active, .roundBudgetExhausted⟩
  | uncleared {left past active state e} :
      Plays (left + 1) past active state [menu.clearing (.error e)] ⟨state, past, active, .failed e⟩
  | unset {left past active state e} : Plays (left + 1) past active state
      [menu.clearing (.ok ()), menu.setting (.error e)] ⟨state, past, active, .failed e⟩
  | unawaited {left past active state e} : Plays (left + 1) past active state
      [menu.clearing (.ok ()), menu.setting (.ok ()), menu.awaiting (.error e)] ⟨state, past, true, .failed e⟩
  | timedOut {left past active state} : Plays (left + 1) past active state
      [menu.clearing (.ok ()), menu.setting (.ok ()), menu.awaiting (.ok none)] ⟨state, past, true, .timedOut⟩
  | unremoved {left past active state event e} : Plays (left + 1) past active state
      [menu.clearing (.ok ()), menu.setting (.ok ()), menu.awaiting (.ok (some event)),
        menu.removing event (.error e)] ⟨state, past, true, .failed e⟩
  | failed {left past active state event during after e} :
      (menu.handler.onReaction state menu.message event).Held during (after, .error e) →
      Plays (left + 1) past active state (menu.upTo event ++ [.reaction state event during after (.error e)])
        ⟨after, past + 1, true, .failed e⟩
  | completed {left past active state event during after} :
      (menu.handler.onReaction state menu.message event).Held during (after, .ok .finish) →
      Plays (left + 1) past active state (menu.upTo event ++ [.reaction state event during after (.ok .finish)])
        ⟨after, past + 1, true, .completed⟩
  | continued {left past active state event during after moves stop} :
      (menu.handler.onReaction state menu.message event).Held during (after, .ok .proceed) →
      Plays left (past + 1) true after moves stop →
      Plays (left + 1) past active state
        (menu.upTo event ++ .reaction state event during after (.ok .proceed) :: moves) stop

/-- All that a menu can come to: its rounds, and then the farewell. -/
inductive Holds (initial : σ) : List (Move σ) → Ending σ → Prop
  | farewell {moves stop during after answer} :
      menu.Plays (menu.options.maxRounds?.getD unlimited) 0 false initial moves stop →
      (menu.handler.onFinish stop.state menu.message stop.termination).Held during (after, answer) →
      Holds initial (moves ++ [.farewell stop.state stop.termination during after answer])
        ⟨after, stop.rounds, outcome stop answer⟩

end

variable {menu : Menu σ} {log : List Exchange}

theorem held_request_bind_iff {β : Type} {request : Request} {next : request.Answer → Conversation β} {result : β} :
    (Conversation.request request >>= next).Held log result ↔
      ∃ answer later, log = ⟨request, answer⟩ :: later ∧ (next answer).Held later result := by
  constructor
  · intro run
    cases run with
    | ask run => exact ⟨_, _, rfl, run⟩
  · rintro ⟨answer, later, rfl, run⟩
    exact .ask run

/-- A round begins with two calls, the second of which is made only when the first does not fail. -/
theorem prepare_cases {result : Except ChatError Unit} (run : menu.prepare.run.Held log result) :
    (∃ e, log = [menu.clearing (.error e)].flatMap Move.exchanges ∧ result = .error e) ∨
      log = [menu.clearing (.ok ()), menu.setting result].flatMap Move.exchanges := by
  cases run with
  | @ask _ _ cleared _ _ run =>
    cases cleared with
    | error e =>
      cases run
      exact .inl ⟨e, rfl, rfl⟩
    | ok =>
      cases run with
      | ask run =>
        cases run
        exact .inr rfl

theorem plays_of_held {left past : Nat} {active : Bool} {state : σ} {stop : Stop σ}
    (run : (menu.play left past active state).Held log stop) :
    ∃ moves, log = moves.flatMap Move.exchanges ∧ menu.Plays left past active state moves stop := by
  induction left generalizing past active state log with
  | zero =>
    cases run
    exact ⟨[], rfl, .exhausted⟩
  | succ left ih =>
    obtain ⟨_, later, prepared, rfl, opening, rest⟩ := held_bind_iff.mp run
    rcases prepare_cases opening with ⟨e, rfl, rfl⟩ | rfl
    · cases rest
      exact ⟨_, rfl, .uncleared⟩
    cases prepared with
    | error e =>
      cases rest
      exact ⟨_, rfl, .unset⟩
    | ok =>
      obtain ⟨awaited, _, rfl, waited⟩ := held_request_bind_iff.mp rest
      rcases awaited with e | none | event
      · cases waited
        exact ⟨_, rfl, .unawaited⟩
      · cases waited
        exact ⟨_, rfl, .timedOut⟩
      obtain ⟨removal, _, rfl, removed⟩ := held_request_bind_iff.mp waited
      cases removal with
      | error e =>
        cases removed
        exact ⟨_, rfl, .unremoved⟩
      | ok =>
        obtain ⟨during, _, ⟨after, answer⟩, rfl, handled, later⟩ := held_bind_iff.mp removed
        rcases answer with e | wish
        · cases later
          exact ⟨_, rfl, .failed handled⟩
        · cases wish with
          | finish =>
            cases later
            exact ⟨_, rfl, .completed handled⟩
          | proceed =>
            obtain ⟨moves, rfl, plays⟩ := ih later
            exact ⟨_, rfl, .continued handled plays⟩

theorem held_of_plays {left past : Nat} {active : Bool} {state : σ} {moves : List (Move σ)} {stop : Stop σ}
    (plays : menu.Plays left past active state moves stop) :
    (menu.play left past active state).Held (moves.flatMap Move.exchanges) stop := by
  induction plays with
  | exhausted => exact .done
  | uncleared => exact .ask .done
  | unset => exact .ask (.ask .done)
  | unawaited | timedOut => exact .ask (.ask (.ask .done))
  | unremoved => exact .ask (.ask (.ask (.ask .done)))
  | failed run | completed run =>
    refine .ask (.ask (.ask (.ask ?_)))
    refine (held_bind_iff (c := menu.handler.onReaction _ _ _)).mpr ⟨_, _, _, ?_, run, .done⟩
    rfl
  | continued run _ ih =>
    refine .ask (.ask (.ask (.ask ?_)))
    refine (held_bind_iff (c := menu.handler.onReaction _ _ _)).mpr ⟨_, _, _, ?_, run, ih⟩
    rfl

/-- The runs of a menu are those that its moves make up. -/
theorem held_hold_iff {initial : σ} {ending : Ending σ} :
    (menu.hold initial).Held log ending ↔
      ∃ moves, log = moves.flatMap Move.exchanges ∧ menu.Holds initial moves ending := by
  unfold hold
  constructor
  · intro run
    obtain ⟨_, _, stop, rfl, rounds, run⟩ := held_bind_iff.mp run
    obtain ⟨during, _, ⟨after, answer⟩, rfl, finished, run⟩ := held_bind_iff.mp run
    cases run
    obtain ⟨moves, rfl, plays⟩ := plays_of_held rounds
    refine ⟨_, ?_, .farewell plays finished⟩
    rw [List.flatMap_append, List.append_nil]
    exact congrArg _ (List.append_nil during).symm
  · rintro ⟨_, rfl, holds⟩
    cases holds with
    | @farewell moves stop during after answer plays finished =>
      refine held_bind_iff.mpr ⟨_, _, stop, List.flatMap_append, held_of_plays plays, ?_⟩
      exact held_bind_iff.mpr ⟨during, [], (after, answer), rfl, finished, .done⟩

end ChatCommands.Menu
