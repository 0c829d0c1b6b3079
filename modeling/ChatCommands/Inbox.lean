import ChatCommands.Chat.Message

namespace ChatCommands

/-- Messages that were sent and not yet taken. Nothing is sent to a closed inbox. -/
structure Inbox where
  queue : List Message := []
  closed : Bool := false

namespace Inbox

/-- What one turn of the loop comes to. -/
inductive Turn where
  | takes (message : Message) (left : Inbox)
  | waits
  | ends

/-- One turn of the loop. A shutdown can end it and a message can be taken; when both can be, `stopFirst`
decides. -/
def turn (inbox : Inbox) (shutdown stopFirst : Bool) : Turn :=
  match inbox.queue with
  | [] => if shutdown || inbox.closed then .ends else .waits
  | message :: rest =>
    if shutdown && stopFirst then .ends else .takes message { inbox with queue := rest }

/-- A message that is taken was the first in the queue. -/
theorem queue_of_turn_takes {inbox left : Inbox} {shutdown stopFirst : Bool} {message : Message}
    (taken : inbox.turn shutdown stopFirst = .takes message left) : inbox.queue = message :: left.queue := by
  unfold turn at taken
  split at taken
  · split at taken <;> cases taken
  next first rest queue =>
    split at taken
    · cases taken
    · cases taken
      exact queue

end Inbox

end ChatCommands
