namespace ChatCommands

abbrev UserId := String

abbrev ChannelId := String

abbrev MessageId := String

/-- A message, inbound or outbound, with the content that it had when it was read. -/
structure Message where
  id : MessageId
  channel : ChannelId
  author : UserId
  authorIsBot : Bool
  content : String
deriving DecidableEq

/-- An emoji that a user has put on a message. -/
structure Reaction where
  message : MessageId
  emoji : String
  user : UserId
  userIsBot : Bool
deriving DecidableEq

/-- The text that mentions a user. -/
def mention (user : UserId) : String := s!"<@{user}>"

end ChatCommands
