import ChatCommands.DefinitionError
import ChatCommands.RateLimit.Window

namespace ChatCommands

/-- The language in which notices are written. Bots can have any: nothing else is known of it. -/
class TemplateEngine where
  /-- Holds of the sources that are templates. -/
  compiles : (source : String) → Bool
  /-- The text that a source makes of a number of `seconds`, unless it fails. -/
  render : (source : String) → (seconds : Nat) → Option String

/-- A notice as it was written, and the text that it makes of the seconds to wait. -/
structure Notice where
  source : String
  render : (seconds : Nat) → Option String

def Notice.ofSource [TemplateEngine] (source : String) : Notice := ⟨source, TemplateEngine.render source⟩

/-- Limits of commands: a sliding window, and the notice that a throttled user is shown. A copied command
shares its limit with the original. What is shared has a number; a limit without one is a command's own. -/
structure RateLimit where
  window : Window
  share? : Option Nat := none
  /-- It is told how many `seconds` the user still has to wait. -/
  notice : Notice

namespace RateLimit

/-- What counts the hits on this limit of the command at a path. -/
def limiter (limit : RateLimit) (path : String) : Limiter :=
  ⟨limit.share?.elim (.command path) .shared, limit.window⟩

/-- The notice for a wait, told in seconds that are rounded up. -/
def renderNotice (limit : RateLimit) (wait : Nat) : Option String := limit.notice.render ((wait + 999) / 1000)

variable [TemplateEngine]

def defaultNotice : Notice :=
  .ofSource "You're doing that too fast. Try again in \x7b\x7b seconds \x7d\x7d second(s)."

/-- A limit of `budget` hits in `milliseconds`. Longer windows than an instant can tell apart are cut. -/
def make (milliseconds budget : Nat) : Except DefinitionError RateLimit :=
  if budget < 1 then .error (.invalidRateLimit budget)
  else .ok { window := ⟨min milliseconds Int64.maxValue.toInt.toNat, budget⟩, notice := defaultNotice }

def withNotice (limit : RateLimit) (source : String) : Except DefinitionError RateLimit :=
  if TemplateEngine.compiles source then .ok { limit with notice := .ofSource source }
  else .error .invalidNoticeTemplate

end RateLimit

end ChatCommands
