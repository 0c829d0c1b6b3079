import ChatCommands.Chat.Conversation

namespace ChatCommands.Menu

/-- What a handler wants after a reaction. -/
inductive Wish where
  | proceed
  | finish
deriving DecidableEq

/-- What is done with reactions and at the end, with a state of type `σ` in between. -/
structure Handler (σ : Type) where
  onReaction : σ → Message → Reaction → Conversation (σ × Except ChatError Wish)
  onFinish : σ → Message → Termination → Conversation (σ × Except ChatError Unit) :=
    fun state _ _ => .done (state, .ok ())

structure Options where
  timeout : Nat := 60000
  maxRounds? : Option Nat := none
  accepts : Reaction → Bool := fun _ => true

end ChatCommands.Menu

namespace ChatCommands

/-- A menu is held on one message in rounds: each puts the emojis on the message afresh, waits for one of them from
a user, takes that user's reaction off again and hands it to the handler. -/
structure Menu (σ : Type) where
  message : Message
  emojis : List String
  handler : Menu.Handler σ
  options : Menu.Options

end ChatCommands

namespace ChatCommands.Menu

variable {σ : Type}

/-- Rounds are counted in 32 bits, so this many is no limit at all. -/
def unlimited : Nat := 4294967296

/-- The reactions that make up a round: of a user, with an emoji of the menu. -/
def qualifies (menu : Menu σ) (r : Reaction) : Bool :=
  !r.userIsBot && menu.emojis.contains r.emoji && menu.options.accepts r

/-- Puts the emojis of the menu, and no others, on its message. -/
def prepare (menu : Menu σ) : Talk ChatError Unit := do
  Talk.chat (.clearReactions menu.message)
  Talk.chat (.setReactions menu.message menu.emojis)

/-- How the rounds of a menu ended. `active` tells whether a round was ever prepared. -/
structure Stop (σ : Type) where
  state : σ
  rounds : Nat
  active : Bool
  termination : Termination

/-- Up to `left` rounds, after `past` of them. -/
def play (menu : Menu σ) : (left past : Nat) → (active : Bool) → σ → Conversation (Stop σ)
  | 0, past, active, state => .done ⟨state, past, active, .roundBudgetExhausted⟩
  | left + 1, past, active, state => do
    match ← menu.prepare.run with
    | .error e => return ⟨state, past, active, .failed e⟩
    | .ok () =>
      match ← Conversation.request (.chat (.awaitReaction menu.message menu.qualifies menu.options.timeout)) with
      | .error e => return ⟨state, past, true, .failed e⟩
      | .ok none => return ⟨state, past, true, .timedOut⟩
      | .ok (some event) =>
        match ← Conversation.request (.chat (.removeReaction menu.message event.emoji event.user)) with
        | .error e => return ⟨state, past, true, .failed e⟩
        | .ok () =>
          match ← menu.handler.onReaction state menu.message event with
          | (after, .error e) => return ⟨after, past + 1, true, .failed e⟩
          | (after, .ok .finish) => return ⟨after, past + 1, true, .completed⟩
          | (after, .ok .proceed) => play menu left (past + 1) true after

/-- How a menu went, farewell included. -/
structure Ending (σ : Type) where
  state : σ
  rounds : Nat
  outcome : Except MenuError Termination

/-- The outcome of a menu. A failure of its rounds is told before a failure of its farewell. -/
def outcome (stop : Stop σ) (farewell : Except ChatError Unit) : Except MenuError Termination :=
  match stop.termination, farewell with
  | .failed e, _ => .error (if stop.active then .round e else .start e)
  | _, .error e => .error (.finish e)
  | termination, .ok () => .ok termination

/-- Holds the menu from its first round to its farewell. -/
def hold (menu : Menu σ) (initial : σ) : Conversation (Ending σ) := do
  let stop ← menu.play (menu.options.maxRounds?.getD unlimited) 0 false initial
  let (state, farewell) ← menu.handler.onFinish stop.state menu.message stop.termination
  return ⟨state, stop.rounds, outcome stop farewell⟩

/-- A handler that keeps the first emoji it is given. -/
def chooser : Handler (Option String) where
  onReaction _ _ event := .done (some event.emoji, .ok .finish)

end ChatCommands.Menu
