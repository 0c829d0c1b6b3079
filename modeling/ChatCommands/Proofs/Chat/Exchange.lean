import ChatCommands.Proofs.Chat.Run

namespace ChatCommands

namespace Exchange

/-- Brings a message to a channel or to a user. -/
def posts : Exchange → Bool
  | ⟨.chat (.send _ _), _⟩ => true
  | ⟨.chat (.sendDirect _ _), _⟩ => true
  | _ => false

/-- Charges a hit, whether the limit is used up or not. -/
def charges : Exchange → Bool
  | ⟨.charge _ _ _, _⟩ => true
  | _ => false

/-- Finds a limit used up. -/
def refuses : Exchange → Bool
  | ⟨.charge _ _ _, .refused _⟩ => true
  | _ => false

theorem charges_of_refuses {e : Exchange} (refused : e.refuses = true) : e.charges = true := by
  unfold refuses at refused
  split at refused
  · rfl
  · cases refused

/-- Waits, for an event or for time to pass. -/
def waits : Exchange → Bool
  | ⟨.chat (.awaitReply _ _ _), _⟩ => true
  | ⟨.chat (.awaitReaction _ _ _), _⟩ => true
  | ⟨.pause _, _⟩ => true
  | _ => false

end Exchange

/-- In these exchanges no limit is charged, and nothing is waited for. -/
def Prompt (log : List Exchange) : Prop := log.any Exchange.charges = false ∧ log.any Exchange.waits = false

theorem Prompt.unrefused {log : List Exchange} (prompt : Prompt log) : log.any Exchange.refuses = false := by
  refine List.any_eq_false.mpr fun e member refused => ?_
  exact List.any_eq_false.mp prompt.1 e member (Exchange.charges_of_refuses refused)

/-- A single message is posted in these exchanges, and it is delivered to this channel. -/
def RepliesOnce (channel : ChannelId) (log : List Exchange) : Prop :=
  ∃ content sent, log.filter Exchange.posts = [⟨.chat (.send channel content), .ok sent⟩]

theorem RepliesOnce.of_silent {channel : ChannelId} {first later : List Exchange}
    (silent : first.filter Exchange.posts = []) (replies : RepliesOnce channel later) :
    RepliesOnce channel (first ++ later) := by
  obtain ⟨content, sent, posted⟩ := replies
  exact ⟨content, sent, by rw [List.filter_append, silent, posted, List.nil_append]⟩

end ChatCommands
