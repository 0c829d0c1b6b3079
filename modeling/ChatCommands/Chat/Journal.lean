import ChatCommands.Chat.Error

namespace ChatCommands

/-- Why a reaction menu ended. -/
inductive Termination where
  | completed
  | roundBudgetExhausted
  | timedOut
  | failed (cause : ChatError)
deriving DecidableEq

inductive MenuEvent where
  | reaction (event : Reaction)
  | finish (termination : Termination)

/-- How a menu went. A menu that tells nothing of itself leaves out its emojis, its message and its
events. -/
structure MenuReport where
  timeout : Nat
  maxRounds? : Option Nat
  emojis? : Option (List String)
  message? : Option MessageId
  events : List MenuEvent
  rounds : Nat
  outcome : Except MenuError Termination

inductive JournalEntry where
  /-- An action ran on a message of this content, with these values. -/
  | invoked (content : String) (values : List String)
  | menu (report : MenuReport)

end ChatCommands
