import ChatCommands.Load
import ChatCommands.Proofs.Json.Record

namespace ChatCommands

open ChatCommands.Json

/-- A text holds a value when it is read as that value and nothing follows. -/
theorem parseAs_eq_ok {α : Type} {read : Reader α} {path source : String} {value : α} :
    parseAs read path source = .ok value ↔
      read (Json.parse source).value = .ok value ∧ (Json.parse source).surplus = false := by
  rw [parseAs, mapError_eq_ok, Document.as, bind_eq_ok]
  cases (Json.parse source).surplus with
  | true => exact ⟨nofun, nofun⟩
  | false =>
    constructor
    · rintro ⟨_, given, made⟩
      cases made
      exact ⟨given, rfl⟩
    · exact fun ⟨given, _⟩ => ⟨value, given, rfl⟩

namespace Config

/-- The times have 64 bits. -/
structure Fits (c : Config) : Prop where
  prompt : c.promptTimeout < 18446744073709551616
  menu : c.menuTimeout < 18446744073709551616
  notice : c.noticeLifetime < 18446744073709551616

theorem readsAs {c : Config} {bound : Nat} (fits : c.Fits) : c.toJson.ReadsAs bound read c := by
  have filled : Fills bound fields _
      (c.lead, c.owner, c.registerDefaults, c.promptTimeout, c.menuTimeout, c.noticeLifetime, ()) :=
    .cons (.string c.lead) (.cons (.string c.owner) (.cons (.bool c.registerDefaults)
      (.cons (.natural fits.prompt) (.cons (.natural fits.menu) (.cons (.natural fits.notice) .nil)))))
  exact ReadsAs.record filled (by decide) fun _ run => bind_eq_ok.mpr ⟨_, run, rfl⟩

theorem lt_of_obtained {key : String} {n absent : Nat} {fs : List Field} {values : Values fs}
    (obtained : Obtained (.default key seconds absent :: fs) (n, values)) (low : absent < 18446744073709551616) :
    n < 18446744073709551616 := by
  rcases obtained.default with ⟨_, given⟩ | rfl
  · exact Reader.natural_lt given
  · exact low

theorem fits_of_read {r : Reading} {c : Config} (run : read r = .ok c) : c.Fits := by
  obtain ⟨⟨lead, owner, registerDefaults, _⟩, given, made⟩ := bind_eq_ok.mp run
  cases made
  have obtained := obtained_of_record given
  exact ⟨lt_of_obtained obtained.2.2.2 (by decide), lt_of_obtained obtained.2.2.2.2 (by decide),
    lt_of_obtained obtained.2.2.2.2.2 (by decide)⟩

theorem checked_eq_ok {c after : Config} : c.checked = .ok after ↔ c.hasUsableLead ∧ after = c := by
  rw [checked]
  split
  · rename_i usable
    rw [Except.ok.injEq]
    exact ⟨fun same => ⟨usable, same.symm⟩, fun ⟨_, same⟩ => same.symm⟩
  · rename_i unusable
    exact ⟨nofun, fun ⟨usable, _⟩ => absurd usable unusable⟩

/-- Settings as they can be made: for an owner, by one change after another, or from a text. -/
inductive Made : Config → Prop
  | new (owner : UserId) : Made { owner }
  | withLead {c after : Config} (lead : String) : Made c → { c with lead }.checked = .ok after → Made after
  | withDefaults {c : Config} (registerDefaults : Bool) : Made c → Made { c with registerDefaults }
  | withPrompt {c : Config} (seconds : UInt64) : Made c → Made { c with promptTimeout := seconds.toNat }
  | withMenu {c : Config} (seconds : UInt64) : Made c → Made { c with menuTimeout := seconds.toNat }
  | withNotice {c : Config} (seconds : UInt64) : Made c → Made { c with noticeLifetime := seconds.toNat }
  | text {source : String} {c : Config} : ofText source = .ok c → Made c
  | file {files : Files} {path : String} {c : Config} : load files path = .ok c → Made c

theorem usable_and_fits_of_parse {path source : String} {c : Config}
    (run : (parseAs read path source >>= checked) = .ok c) : c.hasUsableLead ∧ c.Fits := by
  obtain ⟨given, parsed, passed⟩ := bind_eq_ok.mp run
  obtain ⟨usable, rfl⟩ := checked_eq_ok.mp passed
  exact ⟨usable, fits_of_read (parseAs_eq_ok.mp parsed).1⟩

/-- However settings are made, commands can begin with their lead, and their times fit. -/
theorem Made.usable_and_fits {c : Config} (made : c.Made) : c.hasUsableLead ∧ c.Fits := by
  induction made with
  | new owner =>
    have usable : (!"!".isEmpty && !Text.hasBlank "!") = true := by decide
    exact ⟨usable, show 60 < _ by decide, show 60 < _ by decide, show 5 < _ by decide⟩
  | withLead lead _ passed ih =>
    obtain ⟨usable, rfl⟩ := checked_eq_ok.mp passed
    exact ⟨usable, ih.2.prompt, ih.2.menu, ih.2.notice⟩
  | withDefaults _ _ ih => exact ⟨ih.1, ih.2.prompt, ih.2.menu, ih.2.notice⟩
  | withPrompt seconds _ ih => exact ⟨ih.1, seconds.toNat_lt, ih.2.menu, ih.2.notice⟩
  | withMenu seconds _ ih => exact ⟨ih.1, ih.2.prompt, seconds.toNat_lt, ih.2.notice⟩
  | withNotice seconds _ ih => exact ⟨ih.1, ih.2.prompt, ih.2.menu, seconds.toNat_lt⟩
  | text run => exact usable_and_fits_of_parse run
  | file run =>
    obtain ⟨given, loaded, passed⟩ := bind_eq_ok.mp run
    obtain ⟨source, _, parsed⟩ := bind_eq_ok.mp loaded
    exact usable_and_fits_of_parse (bind_eq_ok.mpr ⟨given, parsed, passed⟩)

end Config

end ChatCommands
