import ChatCommands.Chat.Message
import ChatCommands.Json.Record

namespace ChatCommands

open ChatCommands.Json

namespace Message

def fields : List Field :=
  [.required "id" Reader.string,
   .required "channel" Reader.string,
   .required "author" Reader.string,
   .required "author_is_bot" Reader.bool,
   .required "content" Reader.string]

def read (r : Reading) : Except Defect Message := do
  let (id, channel, author, authorIsBot, content, _) ← record fields r
  return ⟨id, channel, author, authorIsBot, content⟩

def toJson (m : Message) : Json :=
  .object [
    ("id", .string m.id),
    ("channel", .string m.channel),
    ("author", .string m.author),
    ("author_is_bot", .bool m.authorIsBot),
    ("content", .string m.content)]

end Message

namespace Reaction

def fields : List Field :=
  [.required "message" Reader.string,
   .required "emoji" Reader.string,
   .required "user" Reader.string,
   .required "user_is_bot" Reader.bool]

def read (r : Reading) : Except Defect Reaction := do
  let (message, emoji, user, userIsBot, _) ← record fields r
  return ⟨message, emoji, user, userIsBot⟩

def toJson (r : Reaction) : Json :=
  .object [
    ("message", .string r.message),
    ("emoji", .string r.emoji),
    ("user", .string r.user),
    ("user_is_bot", .bool r.userIsBot)]

end Reaction

end ChatCommands
