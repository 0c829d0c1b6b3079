import ChatCommands.Chat.Journal
import ChatCommands.RateLimit.Window

namespace ChatCommands

/-- What the chat platform can be asked for. Times are in milliseconds. -/
inductive ChatCall where
  | send (channel : ChannelId) (content : String)
  | sendDirect (user : UserId) (content : String)
  | edit (message : Message) (content : String)
  | delete (message : Message)
  | awaitReply (channel : ChannelId) (accepts : Message → Bool) (timeout : Nat)
  | clearReactions (message : Message)
  | setReactions (message : Message) (emojis : List String)
  | awaitReaction (message : Message) (accepts : Reaction → Bool) (timeout : Nat)
  | removeReaction (message : Message) (emoji : String) (user : UserId)
  | isDirect (channel : ChannelId)
  | isBot (user : UserId)

namespace ChatCall

/-- What a call yields when the platform does not fail. A wait yields nothing when it times out. -/
abbrev Value : ChatCall → Type
  | send _ _ => Message
  | sendDirect _ _ => Message
  | edit _ _ => Message
  | delete _ => Unit
  | awaitReply _ _ _ => Option Message
  | clearReactions _ => Unit
  | setReactions _ _ => Unit
  | awaitReaction _ _ _ => Option Reaction
  | removeReaction _ _ _ => Unit
  | isDirect _ => Bool
  | isBot _ => Bool

end ChatCall

/-- What a conversation can ask for: a call of the platform, or a service of the bot itself. -/
inductive Request where
  | chat (call : ChatCall)
  /-- A hit of a user. -/
  | charge (limiter : Limiter) (user : UserId) (now : Instant)
  /-- The instant at which commands are dispatched. -/
  | clock
  /-- Lets time pass. -/
  | pause (milliseconds : Nat)
  /-- One of `choices` numbers from zero on. -/
  | pick (choices : Nat)
  /-- Deletes a message later, whatever becomes of the conversation. -/
  | deleteLater (message : Message) (delay : Nat)
  | requestShutdown
  | note (entry : JournalEntry)

namespace Request

abbrev Answer : Request → Type
  | chat call => Except ChatError call.Value
  | charge _ _ _ => Charge
  | clock => Instant
  | pause _ => Unit
  | pick _ => Nat
  | deleteLater _ _ => Unit
  | requestShutdown => Unit
  | note _ => Unit

end Request

/-- What a bot does in chat: it makes a request, and goes on as the answer tells. Nothing here says who answers. -/
inductive Conversation (α : Type) where
  | done (value : α)
  | ask (request : Request) (next : request.Answer → Conversation α)

namespace Conversation

variable {α β : Type}

def bind : Conversation α → (α → Conversation β) → Conversation β
  | done a, f => f a
  | ask request next, f => ask request fun answer => (next answer).bind f

instance : Monad Conversation where
  pure := done
  bind := bind

/-- A request whose answer is the whole conversation. -/
def request (r : Request) : Conversation r.Answer := ask r done

end Conversation

/-- A conversation that may fail with an error of type `ε`. -/
abbrev Talk (ε : Type) := ExceptT ε Conversation

namespace Talk

def chat (call : ChatCall) : Talk ChatError call.Value := Conversation.request (.chat call)

/-- A request that cannot fail. -/
def service {ε : Type} (r : Request) : Talk ε r.Answer := ExceptT.lift (Conversation.request r)

/-- Reports failures as failures of another kind. -/
def orElseAs {ε ε' α : Type} (kind : ε → ε') (talk : Talk ε α) : Talk ε' α := ExceptT.adapt kind talk

/-- The outcome of a talk, failures included. -/
def attempt {ε ε' α : Type} (talk : Talk ε α) : Talk ε' (Except ε α) := ExceptT.lift talk.run

end Talk

end ChatCommands
