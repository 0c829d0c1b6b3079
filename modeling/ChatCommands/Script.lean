import ChatCommands.Dispatch
import ChatCommands.Pong
import ChatCommands.Template

namespace ChatCommands

/-- A condition on replies. Every part that is given has to hold. -/
structure ReplyFilter where
  author? : Option UserId := none
  contains? : Option String := none
  /-- Every character is a decimal digit. -/
  digits : Bool := false

def ReplyFilter.accepts (f : ReplyFilter) (m : Message) : Bool :=
  f.author?.all (· == m.author) && f.contains?.all (Text.contains m.content) &&
    (!f.digits || m.content.toList.all Char.isDigit)

/-- What a scripted menu does with a reaction. -/
inductive MenuMove where
  | proceed
  | finish
  | fail
  | delete
  | edit
deriving DecidableEq

/-- What a scripted menu does at its end. -/
inductive Farewell where
  | nothing
  | fail
  | edit
deriving DecidableEq

/-- A menu written as data. A plain one is done with its first reaction and tells nothing. -/
structure MenuScript where
  emojis : List String
  timeout? : Option Nat := none
  maxRounds? : Option Nat := none
  onlyUser? : Option UserId := none
  moves : List MenuMove := []
  farewell : Farewell := .nothing
  plain : Bool := false

namespace MenuScript

/-- The events of a scripted menu so far, and the moves that are still to come. -/
structure Progress where
  events : List MenuEvent
  moves : List MenuMove

/-- A call of which only a failure matters. -/
def attempt {β : Type} (call : Talk ChatError β) : Conversation (Except ChatError Unit) := do
  match ← call.run with
  | .ok _ => return .ok ()
  | .error e => return .error e

def play (message : Message) (emoji : String) : MenuMove → Conversation (Except ChatError Menu.Wish)
  | .proceed => return .ok .proceed
  | .finish => return .ok .finish
  | .fail => return .error (.runtime "handler failed")
  | .delete => do
    return (← attempt (Talk.chat (.delete message))).map fun _ => .proceed
  | .edit => do
    return (← attempt (Talk.chat (.edit message s!"picked {emoji}"))).map fun _ => .proceed

def bid (message : Message) : Farewell → Conversation (Except ChatError Unit)
  | .nothing => return .ok ()
  | .fail => return .error (.runtime "finish failed")
  | .edit => attempt (Talk.chat (.edit message "closed"))

/-- Plays the moves one after another, and goes on when there are no more. -/
def handler (script : MenuScript) : Menu.Handler Progress where
  onReaction state message event := do
    let noted := state.events ++ [.reaction event]
    let wish ← play message event.emoji (state.moves.headD .proceed)
    return (⟨noted, state.moves.tail⟩, wish)
  onFinish state message termination := do
    let farewell ← bid message script.farewell
    return (⟨state.events ++ [.finish termination], state.moves⟩, farewell)

/-- The handler of plain menus. -/
def plainHandler : Menu.Handler Progress where
  onReaction state _ _ := .done (state, .ok .finish)

def options (script : MenuScript) (start : Menu.Options) : Menu.Options where
  timeout := script.timeout?.getD start.timeout
  maxRounds? := script.maxRounds? <|> start.maxRounds?
  accepts event := start.accepts event && script.onlyUser?.all (· == event.user)

/-- Holds the menu on a message. -/
def hold (script : MenuScript) (message : Message) (start : Menu.Options) : Conversation MenuReport := do
  let options := script.options start
  let handler := if script.plain then plainHandler else script.handler
  let ending ← Menu.hold ⟨message, script.emojis, handler, options⟩ ⟨[], script.moves⟩
  return {
    timeout := options.timeout
    maxRounds? := options.maxRounds?
    emojis? := if script.plain then none else some script.emojis
    message? := if script.plain then none else some message.id
    events := ending.state.events
    rounds := ending.rounds
    outcome := ending.outcome }

end MenuScript

inductive Script where
  | help
  | ping
  | shutdown
  | record
  | echo
  | whoami
  | fail (reason : String)
  | runtime (reason : String)
  | sendTo (channel : ChannelId) (content : String)
  | direct (content : String)
  | prompt (content : String) (timeout? : Option Nat) (filter : ReplyFilter)
  | awaitReply (timeout? : Option Nat) (filter : ReplyFilter)
  | promptReaction (content : String) (emojis : List String) (anyone : Bool) (timeout? : Option Nat)
  | menu (content : String) (menu : MenuScript)
  | quickMenu (content : String) (emojis : List String)

/-- The word for a reason to end a menu that is no failure. -/
def Termination.word : Termination → String
  | .completed => "Completed"
  | .roundBudgetExhausted => "RoundBudgetExhausted"
  | .timedOut => "TimedOut"
  | .failed _ => "Failed"

namespace Script

variable {α : Type}

/-- Says a last word. -/
def tell (inv : Invocation α) (content : String) : Talk ActionError Unit := do
  let _ ← Talk.orElseAs .chat (inv.say content)

/-- What a script does in an invocation with these argument values. -/
def perform (inv : Invocation α) (values : List String) : Script → Talk ActionError Unit
  | help => tell inv (Help.answer inv.registry inv.config.lead inv.isOwner (values.headD ""))
  | ping => do
    let index ← Talk.service (.pick Pong.replies.length)
    tell inv (Pong.address (mention inv.author) (Pong.reply index))
  | shutdown => do
    tell inv "Shutting down bot..."
    Talk.service .requestShutdown
  | record => return ()
  | echo => tell inv ("|".intercalate values)
  | whoami => tell inv s!"{inv.isOwner} {inv.author} {inv.channel} {inv.time.toInt}"
  | fail reason => throw (.failed reason)
  | runtime reason => throw (.chat (.runtime reason))
  | sendTo channel content => do
    let _ ← Talk.orElseAs .chat (Talk.chat (.send channel content))
  | direct content => do
    let _ ← Talk.orElseAs .chat (Talk.chat (.sendDirect inv.author content))
  | prompt content timeout? filter => do
    match ← Talk.orElseAs .chat (inv.ask content timeout? filter.accepts) with
    | some text => tell inv s!"answer: {text}"
    | none => tell inv "no answer"
  | awaitReply timeout? filter => do
    match ← Talk.orElseAs .chat (inv.awaitReply timeout? filter.accepts) with
    | some reply => tell inv s!"reply {reply.id}: {reply.content}"
    | none => tell inv "no reply"
  | promptReaction content emojis anyone timeout? => do
    match ← Talk.orElseAs .menu (inv.askReaction content emojis anyone timeout?) with
    | some emoji => tell inv s!"choice: {emoji}"
    | none => tell inv "no choice"
  | menu content script => do
    let message ← Talk.orElseAs .chat (inv.say content)
    let report ← ExceptT.lift (script.hold message inv.menuOptions)
    Talk.service (.note (.menu report))
    match report.outcome with
    | .ok _ => return ()
    | .error e => throw (.menu e)
  | quickMenu content emojis => do
    let message ← Talk.orElseAs .chat (inv.say content)
    let script : MenuScript := { emojis, plain := true }
    let report ← ExceptT.lift (script.hold message inv.menuOptions)
    match report.outcome with
    | .ok termination => tell inv s!"menu {termination.word} {report.rounds}"
    | .error e => throw (.menu e)

end Script

/-- A script as the action of a command. A noted one is written down in the journal whenever it runs. -/
structure Routine where
  script : Script
  noted : Bool := true

namespace Routine

def builtins : BuiltinActions Routine := ⟨⟨.help, false⟩, ⟨.ping, false⟩, ⟨.shutdown, false⟩⟩

def perform (r : Routine) (inv : Invocation Routine) (values : List String) : Talk ActionError Unit := do
  if r.noted then Talk.service (.note (.invoked inv.message.content values))
  r.script.perform inv values

end Routine

end ChatCommands
