import ChatCommands.Config
import ChatCommands.Menu
import ChatCommands.Registry

namespace ChatCommands

structure Invocation (α : Type) where
  registry : Registry α
  config : Config
  message : Message
  /-- When the command was dispatched. -/
  time : Instant

namespace Invocation

variable {α : Type} (inv : Invocation α)

def author : UserId := inv.message.author

def channel : ChannelId := inv.message.channel

def isOwner : Bool := inv.config.owner == inv.author

/-- Sends to the channel of the invocation. -/
def say (content : String) : Talk ChatError Message := Talk.chat (.send inv.channel content)

/-- Waits for the next message of the invoker in the channel of the invocation. -/
def awaitReply (timeout? : Option Nat) (accepts : Message → Bool) : Talk ChatError (Option Message) :=
  Talk.chat (.awaitReply inv.channel
    (fun reply => reply.author == inv.author && !reply.authorIsBot && accepts reply)
    (timeout?.getD (inv.config.promptTimeout * 1000)))

/-- Asks the invoker, who may leave it without an answer. -/
def ask (question : String) (timeout? : Option Nat) (accepts : Message → Bool) :
    Talk ChatError (Option String) := do
  let _ ← inv.say question
  return (← inv.awaitReply timeout? accepts).map (·.content)

/-- The usual options of menus. -/
def menuOptions : Menu.Options := { timeout := inv.config.menuTimeout * 1000 }

/-- Asks for one reaction: of the invoker, or of anyone. Direct channels have no menus. -/
def askReaction (question : String) (emojis : List String) (anyone : Bool) (timeout? : Option Nat) :
    Talk MenuError (Option String) := do
  if ← Talk.orElseAs .start (Talk.chat (.isDirect inv.channel)) then
    throw (.directMessage inv.channel)
  let message ← Talk.orElseAs .start (inv.say question)
  let options : Menu.Options := {
    timeout := timeout?.getD inv.menuOptions.timeout
    maxRounds? := some 1
    accepts := fun event => anyone || event.user == inv.author }
  let ending ← ExceptT.lift (Menu.hold ⟨message, emojis, Menu.chooser, options⟩ none)
  match ending.outcome with
  | .error e => throw e
  | .ok _ => return ending.state

end Invocation

end ChatCommands
