namespace ChatCommands

/-- Draws one of `choices` numbers from random 32-bit words. A word whose low product falls in the
uneven rest at the top is passed over, so that all numbers are equally likely. When the words run out,
zeros follow. Yields the words that are left. -/
def draw (choices : Nat) : List UInt32 → Nat × List UInt32
  | [] => (0, [])
  | word :: rest =>
    let product := word.toNat * choices
    let even := choices * Nat.pow 2 (31 - choices.log2)
    if product % 4294967296 < even then (product / 4294967296, rest) else draw choices rest

namespace Pong

/-- The replies, in which two braces stand for a mention of the user. -/
def replies : List String :=
  ["Pong!", "Yes, I'm still alive", "What's up, \x7b\x7d?", "Hwwapinggg!"]

def reply (index : Nat) : String := replies.getD index "Pong!"

/-- Puts `user` where a text has two braces. -/
def fill (user : List Char) : List Char → List Char
  | '\x7b' :: '\x7d' :: rest => user ++ fill user rest
  | c :: rest => c :: fill user rest
  | [] => []

/-- A reply to a user whose mention is given. -/
def address (user reply : String) : String := String.ofList (fill user.toList reply.toList)

/-- Replies drawn one after another. -/
def drawReplies : Nat → List UInt32 → List String
  | 0, _ => []
  | n + 1, words =>
    let (index, rest) := draw replies.length words
    reply index :: drawReplies n rest

end Pong

end ChatCommands
