import ChatCommands.Chat.Error

namespace ChatCommands

/-- A queued reaction. One without a target goes to whichever message is asked for first. -/
structure QueuedReaction where
  target? : Option MessageId
  emoji : String
  user : UserId
  userIsBot : Bool
deriving DecidableEq

/-- The state of the platform. `reactions` lists the emojis that the bot has put on a message, and
`removed` the user reactions that were taken off. -/
structure Memory where
  botUser : UserId
  bots : List UserId
  direct : List ChannelId := []
  reactionsForbidden : List ChannelId := []
  undeliverable : List ChannelId := []
  live : List (MessageId × Message) := []
  sent : List Message := []
  deleted : List MessageId := []
  reactions : List (MessageId × List String) := []
  removed : List (MessageId × String × UserId) := []
  replies : List Message := []
  queued : List QueuedReaction := []

/-- Gives `key` a value, in place of the one it had. -/
def setEntry {κ β : Type} [BEq κ] (key : κ) (value : β) (entries : List (κ × β)) : List (κ × β) :=
  (key, value) :: entries.filter fun e => e.1 != key

def eraseEntry {κ β : Type} [BEq κ] (key : κ) (entries : List (κ × β)) : List (κ × β) :=
  entries.filter fun e => e.1 != key

namespace Memory

/-- The empty platform on which `user` is the bot's account. -/
def new (user : UserId) : Memory := { botUser := user, bots := [user] }

/-- The channel of direct messages to a user. -/
def directChannel (user : UserId) : ChannelId := s!"dm-{user}"

def markDirect (m : Memory) (channel : ChannelId) : Memory := { m with direct := channel :: m.direct }

def forbidReactions (m : Memory) (channel : ChannelId) : Memory :=
  { m with reactionsForbidden := channel :: m.reactionsForbidden }

def failDeliveries (m : Memory) (channel : ChannelId) : Memory :=
  { m with undeliverable := channel :: m.undeliverable }

def registerBot (m : Memory) (user : UserId) : Memory := { m with bots := user :: m.bots }

def pushReply (m : Memory) (reply : Message) : Memory := { m with replies := m.replies ++ [reply] }

/-- Queues a reaction. Whether its user is a bot is settled now. -/
def pushReaction (m : Memory) (target? : Option MessageId) (emoji : String) (user : UserId) : Memory :=
  { m with queued := m.queued ++ [⟨target?, emoji, user, m.bots.contains user⟩] }

/-- The contents sent to a channel, as they were sent. -/
def sentTo (m : Memory) (channel : ChannelId) : List String :=
  (m.sent.filter fun s => s.channel == channel).map (·.content)

def message? (m : Memory) (id : MessageId) : Option Message := m.live.lookup id

def reactionsOn (m : Memory) (id : MessageId) : List String := (m.reactions.lookup id).getD []

/-- The identifier of the next message that is sent. -/
def freshId (m : Memory) : MessageId := s!"#{m.sent.length}"

/-- Sends a message under an identifier. -/
def post (m : Memory) (id : MessageId) (channel : ChannelId) (content : String) :
    Except ChatError Message × Memory :=
  if m.undeliverable.contains channel then
    (.error (.delivery channel "channel rejected the message"), m)
  else
    let message : Message := ⟨id, channel, m.botUser, true, content⟩
    (.ok message, { m with live := setEntry message.id message m.live, sent := m.sent ++ [message] })

/-- Sends in the direct channel of a user, which is known to be direct from then on. -/
def postDirect (m : Memory) (id : MessageId) (user : UserId) (content : String) :
    Except ChatError Message × Memory :=
  (m.markDirect (directChannel user)).post id (directChannel user) content

def send (m : Memory) (channel : ChannelId) (content : String) : Except ChatError Message × Memory :=
  m.post m.freshId channel content

def sendDirect (m : Memory) (user : UserId) (content : String) : Except ChatError Message × Memory :=
  m.postDirect m.freshId user content

def edit (m : Memory) (message : Message) (content : String) : Except ChatError Message × Memory :=
  match m.message? message.id with
  | none => (.error (.messageNotFound message.id), m)
  | some stored =>
    let edited := { stored with content }
    (.ok edited, { m with live := setEntry message.id edited m.live })

def delete (m : Memory) (message : Message) : Except ChatError Unit × Memory :=
  match m.message? message.id with
  | none => (.error (.messageNotFound message.id), m)
  | some _ =>
    (.ok (), { m with
      live := eraseEntry message.id m.live
      reactions := eraseEntry message.id m.reactions
      deleted := m.deleted ++ [message.id] })

/-- Runs an operation on reactions unless the channel of the message forbids them. -/
def withReactions {β : Type} (m : Memory) (message : Message)
    (operation : Except ChatError β × Memory) : Except ChatError β × Memory :=
  if m.reactionsForbidden.contains message.channel then
    (.error (.forbidden message.channel "reactions are not permitted here"), m)
  else operation

def clearReactions (m : Memory) (message : Message) : Except ChatError Unit × Memory :=
  m.withReactions message (.ok (), { m with reactions := eraseEntry message.id m.reactions })

/-- The emojis of `more` that are not there yet, put after those that are. -/
def addEmojis (there more : List String) : List String :=
  more.foldl (fun all emoji => if all.contains emoji then all else all ++ [emoji]) there

def setReactions (m : Memory) (message : Message) (emojis : List String) : Except ChatError Unit × Memory :=
  m.withReactions message <|
    match m.message? message.id with
    | none => (.error (.messageNotFound message.id), m)
    | some _ =>
      let all := addEmojis (m.reactionsOn message.id) emojis
      (.ok (), { m with reactions := setEntry message.id all m.reactions })

def removeReaction (m : Memory) (message : Message) (emoji : String) (user : UserId) :
    Except ChatError Unit × Memory :=
  m.withReactions message (.ok (), { m with removed := m.removed ++ [(message.id, emoji, user)] })

/-- The first entry of a queue on which `accepts` holds, and the queue without it. -/
def extract? {β : Type} (accepts : β → Bool) : List β → Option (β × List β)
  | [] => none
  | b :: rest => if accepts b then some (b, rest) else (extract? accepts rest).map fun (x, left) => (x, b :: left)

/-- Takes the oldest queued reply in a channel that `accepts` admits. It is live from then on. -/
def takeReply (m : Memory) (channel : ChannelId) (accepts : Message → Bool) : Option Message × Memory :=
  match extract? (fun r => r.channel == channel && accepts r) m.replies with
  | none => (none, m)
  | some (reply, left) => (some reply, { m with replies := left, live := setEntry reply.id reply m.live })

/-- Hands the queued reactions that may go to message `id` out one by one, until `accepts` admits one.
Those that it does not admit are gone; those for other messages stay. -/
def offer (id : MessageId) (accepts : Reaction → Bool) :
    List QueuedReaction → Option Reaction × List QueuedReaction
  | [] => (none, [])
  | q :: rest =>
    if q.target?.all (· == id) then
      let reaction : Reaction := ⟨id, q.emoji, q.user, q.userIsBot⟩
      if accepts reaction then (some reaction, rest) else offer id accepts rest
    else
      let (found, left) := offer id accepts rest
      (found, q :: left)

def takeReaction (m : Memory) (message : Message) (accepts : Reaction → Bool) : Option Reaction × Memory :=
  let (found, left) := offer message.id accepts m.queued
  (found, { m with queued := left })

end Memory

end ChatCommands
