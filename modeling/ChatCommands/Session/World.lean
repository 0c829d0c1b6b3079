import ChatCommands.Chat.Conversation
import ChatCommands.Chat.Memory
import ChatCommands.Pong

namespace ChatCommands

def ChatCall.name : ChatCall → String
  | send _ _ => "send_message"
  | sendDirect _ _ => "send_direct_message"
  | edit _ _ => "edit_message"
  | delete _ => "delete_message"
  | awaitReply _ _ _ => "await_reply"
  | clearReactions _ => "clear_reactions"
  | setReactions _ _ => "set_reactions"
  | awaitReaction _ _ _ => "await_reaction"
  | removeReaction _ _ _ => "remove_reaction"
  | isDirect _ => "is_direct_message"
  | isBot _ => "is_bot"

/-- What happens to a platform from outside. -/
inductive Happening where
  | markDirect (channel : ChannelId)
  | forbidReactions (channel : ChannelId)
  | failDeliveries (channel : ChannelId)
  | registerBot (user : UserId)
  | pushReply (reply : Message)
  | pushReaction (target? : Option MessageId) (emoji : String) (user : UserId)
  /-- The bot deletes a message that it has put off deleting. -/
  | delete (message : Message)
  /-- Calls of this name fail after so many more of them. -/
  | fault (name : String) (after : Nat)
  /-- No call fails by a fault any more. -/
  | heal
  | nothing

/-- `now` is the time that passes while somebody waits; `clock` is the instant of dispatch. `crashed`
tells of a wait whose end no clock can show. -/
structure World where
  memory : Memory
  limits : List (Limiter × HitLog) := []
  now : Nat := 0
  clock : Instant := 0
  faults : List (String × Nat) := []
  dice : List UInt32 := []
  shutdown : Bool := false
  journal : List JournalEntry := []
  crashed : Bool := false

namespace World

/-- The failure that a call of this name runs into, if any. A fault lets some calls pass first. -/
def meetFault (w : World) (name : String) : Option ChatError × World :=
  match w.faults.lookup name with
  | none => (none, w)
  | some 0 => (some (.runtime s!"{name} fault"), w)
  | some (left + 1) => (none, { w with faults := setEntry name left w.faults })

/-- Runs an operation of the platform. -/
def onMemory {β : Type} (w : World) (operation : Memory → Except ChatError β × Memory) :
    Except ChatError β × World :=
  let (result, memory) := operation w.memory
  (result, { w with memory })

/-- The answer to a call, where a wait does not wait. -/
def perform (w : World) : (call : ChatCall) → Except ChatError call.Value × World
  | .send channel content => w.onMemory (·.send channel content)
  | .sendDirect user content => w.onMemory (·.sendDirect user content)
  | .edit message content => w.onMemory (·.edit message content)
  | .delete message => w.onMemory (·.delete message)
  | .awaitReply channel accepts _ => w.onMemory fun m => (m.takeReply channel accepts).map .ok id
  | .clearReactions message => w.onMemory (·.clearReactions message)
  | .setReactions message emojis => w.onMemory (·.setReactions message emojis)
  | .awaitReaction message accepts _ => w.onMemory fun m => (m.takeReaction message accepts).map .ok id
  | .removeReaction message emoji user => w.onMemory (·.removeReaction message emoji user)
  | .isDirect channel => w.onMemory fun m => (.ok (m.direct.contains channel), m)
  | .isBot user => w.onMemory fun m => (.ok (m.bots.contains user), m)

/-- The answer to a call that may run into a fault. -/
def call (w : World) (call : ChatCall) : Except ChatError call.Value × World :=
  match w.meetFault call.name with
  | (some e, after) => (.error e, after)
  | (none, after) => after.perform call

/-- Charges a hit. Every limiter has a log of its own. -/
def charge (w : World) (limiter : Limiter) (user : UserId) (now : Instant) : Charge × World :=
  let (charge, log) := limiter.window.charge user now ((w.limits.lookup limiter).getD [])
  (charge, { w with limits := setEntry limiter log w.limits })

def occur (w : World) : Happening → World
  | .markDirect channel => { w with memory := w.memory.markDirect channel }
  | .forbidReactions channel => { w with memory := w.memory.forbidReactions channel }
  | .failDeliveries channel => { w with memory := w.memory.failDeliveries channel }
  | .registerBot user => { w with memory := w.memory.registerBot user }
  | .pushReply reply => { w with memory := w.memory.pushReply reply }
  | .pushReaction target? emoji user => { w with memory := w.memory.pushReaction target? emoji user }
  | .delete message => (w.call (.delete message)).2
  | .fault name after => { w with faults := setEntry name after w.faults }
  | .heal => { w with faults := [] }
  | .nothing => w

/-- The first time that no clock can show. Clocks count seconds in 64 bits. -/
def clockEnd : Nat := 9223372036854775808 * 1000

/-- The end of a wait that begins now, unless no clock can show it. -/
def deadline? (w : World) (timeout : Nat) : Option Nat :=
  if w.now + timeout < clockEnd then some (w.now + timeout) else none

end World

end ChatCommands
