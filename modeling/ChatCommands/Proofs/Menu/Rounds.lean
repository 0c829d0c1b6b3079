import ChatCommands.Proofs.Menu.Outcome
import ChatCommands.Proofs.Memory.Answers
import ChatCommands.Proofs.Memory.Ledger

namespace ChatCommands

namespace Menu

open Conversation

variable {σ : Type}

section

variable (menu : Menu σ)

/-- The message of a menu is there, in a channel that permits reactions. -/
structure Hosted (m : Memory) : Prop where
  live : m.IsLive menu.message.id
  permitted : menu.message.channel ∉ m.reactionsForbidden

/-- May make up a round: it goes to the message of the menu or to any message, and is what the menu is after. -/
def counts (q : QueuedReaction) : Bool := q.isFor menu.message.id && menu.qualifies (q.seenOn menu.message.id)

/-- The platform without any emoji on the message. -/
def bare (m : Memory) : Memory := { m with reactions := eraseEntry menu.message.id m.reactions }

/-- The platform when a round has been prepared. -/
def prepared (m : Memory) : Memory :=
  { m with
    reactions := setEntry menu.message.id menu.emojis.eraseDups (eraseEntry menu.message.id m.reactions) }

/-- The platform when a reaction has been taken off again, with what is left in the queue. -/
def served (m : Memory) (event : Reaction) (queue : List QueuedReaction) : Memory :=
  { menu.prepared m with
    queued := queue
    removed := m.removed ++ [(menu.message.id, event.emoji, event.user)] }

/-- The rounds of a menu that has the platform for itself, with the platform before and after. Nothing is left to chance
but what the handler says. -/
inductive Rounds : (left past : Nat) → Bool → σ → Memory → List (Move σ) → Stop σ → Memory → Prop
  | exhausted {past active state m} : Rounds 0 past active state m [] ⟨state, past, active, .roundBudgetExhausted⟩ m
  | timedOut {left past active state m queue} :
      Memory.offer menu.message.id menu.qualifies m.queued = (none, queue) →
      Rounds (left + 1) past active state m [menu.clearing (.ok ()), menu.setting (.ok ()), menu.awaiting (.ok none)]
        ⟨state, past, true, .timedOut⟩ { menu.prepared m with queued := queue }
  | ended {left past active state m event queue during after answer termination} :
      Memory.offer menu.message.id menu.qualifies m.queued = (some event, queue) →
      (menu.handler.onReaction state menu.message event).Held during (after, answer) →
      (Move.reaction state event during after answer).ends? = some termination →
      Rounds (left + 1) past active state m (menu.upTo event ++ [.reaction state event during after answer])
        ⟨after, past + 1, true, termination⟩ (menu.served m event queue)
  | continued {left past active state m event queue during after moves stop final} :
      Memory.offer menu.message.id menu.qualifies m.queued = (some event, queue) →
      (menu.handler.onReaction state menu.message event).Held during (after, .ok .proceed) →
      Rounds left (past + 1) true after (menu.served m event queue) moves stop final →
      Rounds (left + 1) past active state m
        (menu.upTo event ++ .reaction state event during after (.ok .proceed) :: moves) stop final

end

variable {menu : Menu σ} {m after : Memory} {log : List Exchange}

theorem Hosted.served (hosted : menu.Hosted m) (event : Reaction) (queue : List QueuedReaction) :
    menu.Hosted (menu.served m event queue) := ⟨hosted.live, hosted.permitted⟩

theorem Hosted.withReactions (hosted : menu.Hosted m) {β : Type} (operation : Except ChatError β × Memory) :
    m.withReactions menu.message operation = operation := by
  rw [Memory.withReactions, if_neg]
  exact fun forbidden => hosted.permitted (List.contains_iff_mem.mp forbidden)

/-- A call has the answer that the platform gives. -/
theorem answered {call : ChatCall} {answer value : Except ChatError call.Value} {between : Memory}
    (answers : m.Answers (⟨.chat call, answer⟩ :: log) after) (look : ∀ id, m.respond id call = (value, between)) :
    answer = value ∧ between.Answers log after := by
  obtain ⟨id, same, later⟩ := Memory.answers_chat_iff.mp answers
  rw [look] at same later
  exact ⟨same, later⟩

theorem Hosted.respond_clear (hosted : menu.Hosted m) (id : MessageId) :
    m.respond id (.clearReactions menu.message) = (.ok (), menu.bare m) := hosted.withReactions _

theorem Hosted.respond_set (hosted : menu.Hosted m) (id : MessageId) :
    (menu.bare m).respond id (.setReactions menu.message menu.emojis) = (.ok (), menu.prepared m) := by
  have open_ : menu.Hosted (menu.bare m) := ⟨hosted.live, hosted.permitted⟩
  refine (open_.withReactions _).trans ?_
  obtain ⟨stored, found⟩ := Option.isSome_iff_exists.mp open_.live
  have none : (menu.bare m).reactionsOn menu.message.id = [] := by
    rw [Memory.reactionsOn, bare, lookup_eraseEntry, if_pos rfl]
    rfl
  have emojis : Memory.addEmojis [] menu.emojis = menu.emojis.eraseDups := by
    rw [Memory.addEmojis_eq]
    simp
  rw [found, none]
  simp only [emojis]
  rfl

theorem Hosted.cleared (hosted : menu.Hosted m) {answer : Except ChatError Unit}
    (answers : m.Answers (⟨.chat (.clearReactions menu.message), answer⟩ :: log) after) :
    answer = .ok () ∧ (menu.bare m).Answers log after :=
  answered answers hosted.respond_clear

theorem Hosted.set (hosted : menu.Hosted m) {answer : Except ChatError Unit}
    (answers : (menu.bare m).Answers (⟨.chat (.setReactions menu.message menu.emojis), answer⟩ :: log) after) :
    answer = .ok () ∧ (menu.prepared m).Answers log after :=
  answered answers hosted.respond_set

theorem Hosted.awaited {answer : Except ChatError (Option Reaction)}
    (answers : (menu.prepared m).Answers
      (⟨.chat (.awaitReaction menu.message menu.qualifies menu.options.timeout), answer⟩ :: log) after) :
    ∃ found? queue, Memory.offer menu.message.id menu.qualifies m.queued = (found?, queue) ∧ answer = .ok found? ∧
      Memory.Answers { menu.prepared m with queued := queue } log after := by
  obtain ⟨same, later⟩ := answered answers fun _ => rfl
  exact ⟨_, _, rfl, same, later⟩

/-- What is taken off again is what the wait has found. -/
theorem Hosted.removed (hosted : menu.Hosted m) {event : Reaction} {answer : Except ChatError Unit}
    (answers : m.Answers (⟨.chat (.clearReactions menu.message), .ok ()⟩ ::
      ⟨.chat (.setReactions menu.message menu.emojis), .ok ()⟩ ::
      ⟨.chat (.awaitReaction menu.message menu.qualifies menu.options.timeout), .ok (some event)⟩ ::
      ⟨.chat (.removeReaction menu.message event.emoji event.user), answer⟩ :: log) after) :
    ∃ queue, Memory.offer menu.message.id menu.qualifies m.queued = (some event, queue) ∧ answer = .ok () ∧
      (menu.served m event queue).Answers log after := by
  obtain ⟨found?, queue, offered, same, later⟩ := Hosted.awaited (hosted.set (hosted.cleared answers).2).2
  cases same
  have open_ : menu.Hosted { menu.prepared m with queued := queue } := ⟨hosted.live, hosted.permitted⟩
  exact ⟨queue, offered, answered later fun _ => open_.withReactions _⟩

/-- The handler leaves the platform as the menu has left it. -/
theorem Hosted.reacted (hosted : menu.Hosted m) {event : Reaction} {during rest : List Exchange}
    (answers : m.Answers ((menu.upTo event : List (Move σ)).flatMap Move.exchanges ++ (during ++ rest)) after)
    (off : ∀ e ∈ during, e.request.OffPlatform) :
    ∃ queue, Memory.offer menu.message.id menu.qualifies m.queued = (some event, queue) ∧
      (menu.served m event queue).Answers rest after := by
  obtain ⟨queue, offered, _, handled⟩ := hosted.removed answers
  have whole : (menu.served m event queue).Answers (during ++ rest) after := handled
  obtain ⟨between, first, later⟩ := Memory.answers_append_iff.mp whole
  rw [first.eq_of_offPlatform off] at later
  exact ⟨queue, offered, later⟩

/-- With the platform for itself, a menu can only play such rounds. -/
theorem rounds_of_plays {left past : Nat} {active : Bool} {state : σ} {moves : List (Move σ)} {stop : Stop σ}
    (plays : menu.Plays left past active state moves stop) (off : menu.handler.Asks Request.OffPlatform)
    (hosted : menu.Hosted m) (answers : m.Answers (moves.flatMap Move.exchanges) after) :
    menu.Rounds left past active state m moves stop after := by
  induction plays generalizing m with
  | exhausted =>
    cases answers
    exact .exhausted
  | uncleared => cases (hosted.cleared answers).1
  | unset => cases (hosted.set (hosted.cleared answers).2).1
  | unawaited =>
    obtain ⟨_, _, _, same, _⟩ := Hosted.awaited (hosted.set (hosted.cleared answers).2).2
    cases same
  | timedOut =>
    obtain ⟨found?, queue, offered, same, later⟩ := Hosted.awaited (hosted.set (hosted.cleared answers).2).2
    cases same
    cases later
    exact .timedOut offered
  | unremoved =>
    obtain ⟨_, _, same, _⟩ := hosted.removed answers
    cases same
  | failed handled | completed handled =>
    obtain ⟨queue, offered, later⟩ := hosted.reacted answers ((off.onReaction ..).of_mem handled)
    cases later
    exact .ended offered handled rfl
  | continued handled _ ih =>
    rw [List.flatMap_append] at answers
    obtain ⟨queue, offered, later⟩ := hosted.reacted answers ((off.onReaction ..).of_mem handled)
    exact .continued offered handled (ih (hosted.served _ queue) later)

end Menu

end ChatCommands
