import ChatCommands.Help
import ChatCommands.Invocation

namespace ChatCommands

/-- A bot: its commands and settings, an optional gate that messages have to pass, and the meaning of
its actions. -/
structure Bot (α : Type) where
  registry : Registry α
  config : Config
  gate? : Option (Message → Config → Bool) := none
  perform : α → Invocation α → List String → Talk ActionError Unit

/-- Why a command is refused before anything is charged. -/
inductive Denial where
  | ownerOnly
  | directMessage
deriving DecidableEq

/-- What became of a message. -/
inductive Outcome where
  /-- It is no command: a bot wrote it, it does not begin as commands do, or the gate refused it. -/
  | ignored
  | notFound
  | denied (reason : Denial)
  /-- The action ran. -/
  | handled
  /-- Throttled, no such subcommand, or the tokens do not match. -/
  | rejected
deriving DecidableEq

/-- What the checks on a message lead to: an outcome at once, or a command to be run on the tokens after
its name. -/
inductive Admission (α : Type) where
  | settled (outcome : Outcome)
  | admitted (inv : Invocation α) (command : Command α) (tokens : List String)

/-- Where the way down a command tree ends. -/
inductive Descent (α : Type) where
  | arrived (command : String) (action : α) (values : List String)
  | refused

namespace Invocation

variable {α : Type} (inv : Invocation α)

/-- Sends to the channel of the invocation. -/
def reply (content : String) : Talk CommandError Message := Talk.orElseAs .chat (inv.say content)

/-- Charges the limit of a command. An invoker who is over budget is told so, in a notice that is
deleted again later. -/
def charge (c : Command α) : Talk CommandError Bool :=
  match c.profile.rateLimit? with
  | none => return true
  | some limit => do
    match ← Talk.service (.charge (limit.limiter c.fullName) inv.author inv.time) with
    | .accepted => return true
    | .refused wait =>
      match limit.renderNotice wait with
      | none => throw (.notice c.fullName)
      | some notice =>
        let sent ← inv.reply notice
        Talk.service (.deleteLater sent (inv.config.noticeLifetime * 1000))
        return false

/-- Goes down the tree from a command, one token for each branch, and charges every command on the
way before anything else. -/
def descend (c : Command α) (tokens : List String) : Talk CommandError (Descent α) := do
  if !(← inv.charge c) then return .refused
  match c with
  | .leaf _ usage action =>
    match usage.matchTokens tokens with
    | .ok values => return .arrived c.fullName action values
    | .error _ =>
      let _ ← inv.reply (Help.leafUsage inv.config.lead c)
      return .refused
  | .branch _ _ =>
    match tokens with
    | [] => refuseAtBranch
    | token :: rest =>
      match c.child? token with
      | some child => descend child rest
      | none => refuseAtBranch
where
  refuseAtBranch : Talk CommandError (Descent α) := do
    let _ ← inv.reply (Help.branchUsage inv.config.lead c)
    return .refused

end Invocation

namespace Bot

variable {α : Type} (bot : Bot α)

/-- Runs a command on the tokens after its name. Yields whether an action ran. -/
def execute (inv : Invocation α) (c : Command α) (tokens : List String) : Talk CommandError Bool := do
  match ← inv.descend c tokens with
  | .refused => return false
  | .arrived command action values =>
    Talk.orElseAs (.action command) (bot.perform action inv values)
    return true

/-- The text of a message that the bot takes for a command, without the lead. -/
def text? (message : Message) : Option String := do
  let text ← Text.after? bot.config.lead message.content
  if bot.gate?.all fun gate => gate message bot.config then some text else none

/-- Checks a message, and looks its first word up. -/
def receive (message : Message) : Talk CommandError (Admission α) := do
  if message.authorIsBot then return .settled .ignored
  if ← Talk.orElseAs .chat (Talk.chat (.isBot message.author)) then return .settled .ignored
  match bot.text? message >>= Text.cut? with
  | none => return .settled .ignored
  | some (head, remaining) =>
    match bot.registry.command? head with
    | none =>
      answer s!"Command not found: `{head}`"
      return .settled .notFound
    | some c =>
      if c.profile.ownerOnly && message.author != bot.config.owner then
        answer "This command can only be used by the owner"
        return .settled (.denied .ownerOnly)
      if !c.profile.dmAllowed then
        if ← Talk.orElseAs .chat (Talk.chat (.isDirect message.channel)) then
          answer "This command cannot be used in direct messages"
          return .settled (.denied .directMessage)
      let time ← Talk.service .clock
      return .admitted ⟨bot.registry, bot.config, message, time⟩ c (Text.words remaining)
where
  answer (content : String) : Talk CommandError Unit := do
    let _ ← Talk.orElseAs .chat (Talk.chat (.send message.channel content))

/-- Handles one message. -/
def handle (message : Message) : Talk CommandError Outcome := do
  match ← bot.receive message with
  | .settled outcome => return outcome
  | .admitted inv c tokens => return if ← bot.execute inv c tokens then .handled else .rejected

/-- Tells the owner of a failure. When that fails as well, nobody is told. -/
def reportFailure (message : Message) (e : CommandError) : Conversation Unit := do
  let notice :=
    s!"Unhandled error while handling `{message.content}` from {mention message.author}: {e.message}"
  let _ ← Conversation.request (.chat (.sendDirect bot.config.owner notice))
  return ()

/-- Handles one message of the inbox, and tells the owner when that fails. -/
def attend (message : Message) : Conversation Unit := do
  match ← (bot.handle message).run with
  | .ok _ => return ()
  | .error e => bot.reportFailure message e

end Bot

end ChatCommands
