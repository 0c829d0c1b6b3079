import ChatCommands.Chat.Message
import ChatCommands.Text.Blank

namespace ChatCommands

/-- Settings of a bot. Commands begin with `lead`; the times are in seconds. -/
structure Config where
  lead : String := "!"
  owner : UserId
  registerDefaults : Bool := true
  promptTimeout : Nat := 60
  menuTimeout : Nat := 60
  noticeLifetime : Nat := 5
deriving DecidableEq

namespace Config

/-- Holds of a lead with something in it and no blank. -/
def hasUsableLead (c : Config) : Bool := !c.lead.isEmpty && !Text.hasBlank c.lead

def leadMessage (lead : String) : String :=
  s!"invalid command prefix '{lead}': must be non-empty and contain no whitespace"

end Config

end ChatCommands
