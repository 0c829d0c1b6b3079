import ChatCommands.Proofs.Format.Catalog
import ChatCommands.Proofs.Format.Config

namespace ChatCommands

open ChatCommands.Json

/-- A JSON value is read as `value`, whatever the order of its members, and so is every text that holds it and
nothing else. -/
structure ReadBack {α : Type} (read : Reader α) (ofText : String → Except LoadError α) (json : Json) (value : α) :
    Prop where
  fromValue : ∀ j, json.Alike j → read j.reading = .ok value
  fromText : ∀ j source, json.Alike j → Json.parse source = ⟨j.reading, false⟩ → ofText source = .ok value

theorem parseAs_of_reads {α : Type} {read : Reader α} {j : Json} {value : α} (reads : read j.reading = .ok value)
    {source : String} (parsed : Json.parse source = ⟨j.reading, false⟩) (path : String) :
    parseAs read path source = .ok value := by
  rw [parseAs_eq_ok, parsed]
  exact ⟨reads, rfl⟩

theorem Catalog.readBack {c : Catalog} (fits : c.Fits ValidatorSpec.Fits) : ReadBack read ofText c.toJson c := by
  have reads (j : Json) (alike : c.toJson.Alike j) : read j.reading = .ok c :=
    ReadsAs.reads (fun _ => readsAs fits) alike
  exact ⟨reads, fun j _ alike parsed => parseAs_of_reads (reads j alike) parsed inlinePath⟩

theorem Config.readBack {c : Config} (usable : c.hasUsableLead) (fits : c.Fits) :
    ReadBack read ofText c.toJson c := by
  have reads (j : Json) (alike : c.toJson.Alike j) : read j.reading = .ok c :=
    ReadsAs.reads (fun _ => readsAs fits) alike
  refine ⟨reads, fun j _ alike parsed => bind_eq_ok.mpr ⟨c, ?_, checked_eq_ok.mpr ⟨usable, rfl⟩⟩⟩
  exact parseAs_of_reads (reads j alike) parsed inlinePath

/-- What is declared survives its JSON form. A catalog without doubles is read back as it is, however deep its
subcommands nest, and so are settings, however they were made. The same holds of all that was read before, with
doubles too, so that to write it and to read it once more changes nothing. -/
theorem declarations_round_trip :
    (∀ c : Catalog, c.Fits (fun v => v.Fits ∧ v.IsExact) → ReadBack Catalog.read Catalog.ofText c.toJson c) ∧
    (∀ c : Config, c.Made → ReadBack Config.read Config.ofText c.toJson c) ∧
    (∀ r c, Catalog.read r = .ok c → ReadBack Catalog.read Catalog.ofText c.toJson c) ∧
    ∀ r c, Config.read r = .ok c → ∀ j, c.toJson.Alike j → Config.read j.reading = .ok c := by
  refine ⟨fun c fits => ?_, fun c made => ?_, fun r c run => ?_, fun r c run j alike => ?_⟩
  · exact Catalog.readBack fun d member => (fits d member).mono fun _ => And.left
  · obtain ⟨usable, fits⟩ := made.usable_and_fits
    exact Config.readBack usable fits
  · exact Catalog.readBack (Catalog.fits_of_read run)
  · exact ReadsAs.reads (fun _ => Config.readsAs (Config.fits_of_read run)) alike

namespace Sample

def within : ArgumentDeclaration where
  name := "sides"
  validator := .integerRange (-2) 20
  isOptional := true
  default? := some ""

def nested : Catalog where
  groups := [⟨"tools", "Tools", none⟩]
  commands := [{
    name := "git"
    description := "Versions"
    aliases := ["g", "vcs"]
    examples := [⟨"git remote add", "Adds \"it\""⟩]
    subcommands := [{
      name := "remote"
      description := "Remotes"
      subcommands := [{ name := "add", description := "", arguments := [within] }]
      rateLimit? := some ⟨18446744073709551615, 4294967295, some "Wait"⟩ }] }]

theorem nested_fits : nested.Fits fun v => v.Fits ∧ v.IsExact := by
  intro d member
  obtain rfl := List.mem_singleton.mp member
  refine .intro (List.forall_mem_nil _) nofun fun remote member => ?_
  obtain rfl := List.mem_singleton.mp member
  refine .intro (List.forall_mem_nil _) ?_ fun add member => ?_
  · rintro _ ⟨rfl⟩
    exact ⟨by decide, by decide⟩
  obtain rfl := List.mem_singleton.mp member
  refine .intro (fun a member => ?_) nofun (List.forall_mem_nil _)
  obtain rfl := List.mem_singleton.mp member
  exact ⟨⟨by decide, by decide⟩, trivial⟩

def settings : Config := { owner := "7", lead := "?", menuTimeout := 18446744073709551615 }

theorem settings_made : settings.Made := by
  have started : Config.Made { owner := "7", lead := "?" } := .withLead "?" (.new "7") (by decide)
  exact .withMenu 18446744073709551615 started

/-- The settings with their members in another order. -/
def settingsJson : Json :=
  .object [("owner", .string "7"), ("prefix", .string "?"), ("register_defaults", .bool true),
    ("prompt_timeout_secs", .whole 60), ("menu_timeout_secs", .whole 18446744073709551615),
    ("throttle_notice_ttl_secs", .whole 5)]

def settingsText : String :=
  "\x7b\"owner\":\"7\",\"prefix\":\"?\",\"register_defaults\":true,\"prompt_timeout_secs\":60," ++
    "\"menu_timeout_secs\":18446744073709551615,\"throttle_notice_ttl_secs\":5\x7d"

theorem alike_settingsJson : settings.toJson.Alike settingsJson :=
  .object (forall₂_alike_members _) (.swap ..)

set_option maxRecDepth 8000 in
theorem parse_settingsText : Json.parse settingsText = ⟨settingsJson.reading, false⟩ := by
  with_unfolding_all rfl

end Sample

/-- A catalog whose commands nest, and settings with their members in another order, as a value and as a text. -/
theorem declarations_round_trip_nested :
    Sample.nested.Fits (fun v => v.Fits ∧ v.IsExact) ∧ Sample.settings.Made ∧
      Catalog.read Sample.nested.toJson.reading = .ok Sample.nested ∧
      ReadBack Catalog.read Catalog.ofText Sample.nested.toJson Sample.nested ∧
      Config.ofText Sample.settingsText = .ok Sample.settings ∧
      Config.read Sample.settingsJson.reading = .ok Sample.settings := by
  obtain ⟨catalogs, configs, again, _⟩ := declarations_round_trip
  have nested := catalogs Sample.nested Sample.nested_fits
  have settings := configs Sample.settings Sample.settings_made
  have read := nested.fromValue _ (.refl _)
  have told := settings.fromText _ _ Sample.alike_settingsJson Sample.parse_settingsText
  exact ⟨Sample.nested_fits, Sample.settings_made, read, again _ _ read, told,
    settings.fromValue _ Sample.alike_settingsJson⟩

end ChatCommands
