import ChatCommands.Chat.Message

namespace ChatCommands

/-- Failures of the chat platform. -/
inductive ChatError where
  | delivery (channel : ChannelId) (reason : String)
  | messageNotFound (id : MessageId)
  | forbidden (channel : ChannelId) (reason : String)
  | runtime (reason : String)
deriving DecidableEq

def ChatError.message : ChatError → String
  | delivery channel reason => s!"failed to deliver message to channel {channel}: {reason}"
  | messageNotFound id => s!"message {id} was not found"
  | forbidden channel reason => s!"operation not permitted in channel {channel}: {reason}"
  | runtime reason => s!"chat transport error: {reason}"

/-- Failures of a reaction menu: before it was ever active, in a round, in its farewell, or because its
channel is a direct one. -/
inductive MenuError where
  | start (cause : ChatError)
  | round (cause : ChatError)
  | finish (cause : ChatError)
  | directMessage (channel : ChannelId)
deriving DecidableEq

def MenuError.message : MenuError → String
  | start cause => s!"reaction menu could not start: {cause.message}"
  | round cause => s!"reaction menu round failed: {cause.message}"
  | finish cause => s!"reaction menu finish callback failed: {cause.message}"
  | directMessage channel => s!"reaction menus cannot be created in direct-message channel {channel}"

/-- Failures of an action. -/
inductive ActionError where
  | chat (cause : ChatError)
  | menu (cause : MenuError)
  | failed (reason : String)
deriving DecidableEq

def ActionError.message : ActionError → String
  | chat cause => cause.message
  | menu cause => cause.message
  | failed reason => reason

/-- Failures that end the handling of a message. `notice` is a throttle notice that does not render. -/
inductive CommandError where
  | chat (cause : ChatError)
  | action (command : String) (cause : ActionError)
  | notice (command : String)
deriving DecidableEq

def CommandError.message : CommandError → String
  | chat cause => cause.message
  | action command cause => s!"command '{command}' failed: {cause.message}"
  | notice command => s!"failed to render throttle notice for '{command}'"

end ChatCommands
