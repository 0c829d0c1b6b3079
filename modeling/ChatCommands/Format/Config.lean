import ChatCommands.Config
import ChatCommands.Json.Record

namespace ChatCommands.Config

open ChatCommands.Json

def seconds : Reader Nat := Reader.natural 18446744073709551616

def fields : List Field :=
  [.default "prefix" Reader.string "!",
   .required "owner" Reader.string,
   .default "register_defaults" Reader.bool true,
   .default "prompt_timeout_secs" seconds 60,
   .default "menu_timeout_secs" seconds 60,
   .default "throttle_notice_ttl_secs" seconds 5]

/-- Reads settings, whatever their lead. -/
def read (r : Reading) : Except Defect Config := do
  let (lead, owner, registerDefaults, promptTimeout, menuTimeout, noticeLifetime, _) ← record fields r
  return ⟨lead, owner, registerDefaults, promptTimeout, menuTimeout, noticeLifetime⟩

def toJson (c : Config) : Json :=
  .object [
    ("prefix", .string c.lead),
    ("owner", .string c.owner),
    ("register_defaults", .bool c.registerDefaults),
    ("prompt_timeout_secs", .whole c.promptTimeout),
    ("menu_timeout_secs", .whole c.menuTimeout),
    ("throttle_notice_ttl_secs", .whole c.noticeLifetime)]

end ChatCommands.Config
