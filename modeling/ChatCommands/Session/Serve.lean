import ChatCommands.Inbox
import ChatCommands.Session.Schedule

namespace ChatCommands.Session

variable {ρ : Type}

/-- Gives the loop its turns on an inbox until it waits or ends. -/
def takeAll (attend : Message → Conversation Unit) (s : Session ρ) (inbox : Inbox) : Session ρ :=
  match taken : inbox.turn s.world.shutdown true with
  | .takes message left =>
    have : left.queue.length < inbox.queue.length := by
      rw [Inbox.queue_of_turn_takes taken]
      exact Nat.lt_succ_self _
    takeAll attend { s with ready := s.ready ++ [.aside (attend message) none] } left
  | .waits | .ends => s
termination_by inbox.queue.length

/-- Holds while the loop waits for more messages: until a shutdown is asked for. -/
def isServing (s : Session ρ) : Bool :=
  match Inbox.turn {} s.world.shutdown true with
  | .waits => true
  | .takes _ _ | .ends => false

/-- Sends a message to the inbox, if the loop still waits for one, and gives turns to whoever can go on.
Yields whether the message was sent. -/
def deliver (attend : Message → Conversation Unit) (s : Session ρ) (message : Message) : Bool × Session ρ :=
  if s.isServing then (true, settle turnLimit (takeAll attend s { queue := [message] }))
  else (false, s)

end ChatCommands.Session
