import ChatCommands.Format.Catalog
import ChatCommands.Proofs.Format.Validator

namespace ChatCommands

open ChatCommands.Json

variable {bound : Nat} {admitted other : ValidatorSpec → Prop}

namespace ArgumentDeclaration

theorem readsAs {d : ArgumentDeclaration} (fits : d.validator.Fits) : d.toJson.ReadsAs bound read d := by
  have filled : Fills bound fields _ (d.name, d.validator, d.isOptional, d.multi, d.default?, ()) :=
    .cons (.string d.name) (.cons (ValidatorSpec.readsAs fits) (.cons (.bool d.isOptional) (.cons (.bool d.multi)
      (.cons (.optional (fun _ => nofun) fun text _ => .string text) .nil))))
  exact ReadsAs.record filled (by decide) fun _ run => bind_eq_ok.mpr ⟨_, run, rfl⟩

theorem fits_of_read {r : Reading} {d : ArgumentDeclaration} (run : read r = .ok d) : d.validator.Fits := by
  obtain ⟨⟨name, validator, _⟩, given, made⟩ := bind_eq_ok.mp run
  cases made
  rcases (obtained_of_record given).2.1 with ⟨_, given⟩ | absent
  · exact ValidatorSpec.fits_of_read given
  · cases absent
    trivial

end ArgumentDeclaration

namespace RateLimitDeclaration

/-- The numbers have 64 and 32 bits. -/
structure Fits (d : RateLimitDeclaration) : Prop where
  window : d.windowSeconds < 18446744073709551616
  hits : d.maxHits < 4294967296

theorem readsAs {d : RateLimitDeclaration} (fits : d.Fits) : d.toJson.ReadsAs bound read d := by
  have filled : Fills bound fields _ (d.windowSeconds, d.maxHits, d.notice?, ()) :=
    .cons (.natural fits.window) (.cons (.natural fits.hits)
      (.cons (.optional (fun _ => nofun) fun text _ => .string text) .nil))
  exact ReadsAs.record filled (by decide) fun _ run => bind_eq_ok.mpr ⟨_, run, rfl⟩

theorem fits_of_read {r : Reading} {d : RateLimitDeclaration} (run : read r = .ok d) : d.Fits := by
  obtain ⟨⟨seconds, hits, _⟩, given, made⟩ := bind_eq_ok.mp run
  cases made
  have obtained := obtained_of_record given
  obtain ⟨_, window⟩ := obtained.required
  obtain ⟨_, hits⟩ := obtained.2.required
  exact ⟨Reader.natural_lt window, Reader.natural_lt hits⟩

end RateLimitDeclaration

theorem Example.readsAs (e : Example) : e.toJson.ReadsAs bound read e := by
  intro j alike _
  cases alike with
  | array alike =>
    cases alike with
    | cons invocation alike =>
      cases alike with
      | cons explanation alike =>
        cases alike
        cases invocation
        cases explanation
        rfl

theorem GroupDeclaration.readsAs (d : GroupDeclaration) : d.toJson.ReadsAs bound read d := by
  have filled : Fills bound fields _ (d.name, d.description, d.title?, ()) :=
    .cons (.string d.name) (.cons (.string d.description)
      (.cons (.optional (fun _ => nofun) fun text _ => .string text) .nil))
  exact ReadsAs.record filled (by decide) fun _ run => bind_eq_ok.mpr ⟨_, run, rfl⟩

namespace CommandDeclaration

/-- The numbers declared have the bits that their types have, and only admitted validators are declared, on every
level. -/
inductive Fits (admitted : ValidatorSpec → Prop) : CommandDeclaration → Prop
  | intro {d : CommandDeclaration} : (∀ a ∈ d.arguments, admitted a.validator) →
      (∀ limit, d.rateLimit? = some limit → limit.Fits) → (∀ sub ∈ d.subcommands, Fits admitted sub) →
      Fits admitted d

theorem Fits.mono (imp : ∀ v, admitted v → other v) {d : CommandDeclaration} (fits : d.Fits admitted) :
    d.Fits other := by
  induction fits with
  | intro arguments limit _ ih => exact .intro (fun a member => imp _ (arguments a member)) limit ih

theorem allToJson_eq (ds : List CommandDeclaration) : allToJson ds = ds.map toJson := by
  induction ds with
  | nil => rw [allToJson, List.map_nil]
  | cons d rest ih => rw [allToJson, ih, List.map_cons]

/-- A command is read back when its subcommands are. -/
theorem readsAs_readWith {inner : Reader CommandDeclaration} {d : CommandDeclaration}
    (usage : ∀ a ∈ d.arguments, a.validator.Fits) (limit : ∀ limit, d.rateLimit? = some limit → limit.Fits)
    (subcommands : ∀ sub ∈ d.subcommands, sub.toJson.ReadsAs bound inner sub) :
    d.toJson.ReadsAs (bound + 1) (readWith inner) d := by
  obtain ⟨name, description, aliases, group?, details?, examples, arguments, subs, ownerOnly, dmAllowed, hidden,
    rateLimit?⟩ := d
  have filled : Fills bound (fields inner) _ (name, description, aliases, group?, details?, examples, arguments, subs,
      ownerOnly, dmAllowed, hidden, rateLimit?, ()) :=
    .cons (.string name) (.cons (.string description) (.cons (.strings aliases)
      (.cons (.optional (fun _ => nofun) fun text _ => .string text)
      (.cons (.optional (fun _ => nofun) fun text _ => .string text)
      (.cons (.list fun e _ => e.readsAs)
      (.cons (.list fun a member => ArgumentDeclaration.readsAs (usage a member))
      (.cons (.list subcommands)
      (.cons (.bool ownerOnly) (.cons (.bool dmAllowed) (.cons (.bool hidden)
      (.cons (.optional (fun _ => nofun) fun rate same => RateLimitDeclaration.readsAs (limit rate same))
        .nil)))))))))))
  have distinct : ((fields inner).map Field.key).Nodup := by
    simp [fields, Field.required, Field.default, Field.optional]
  rw [toJson, allToJson_eq]
  exact ReadsAs.record_succ filled distinct fun _ run => bind_eq_ok.mpr ⟨_, run, rfl⟩

theorem readsAs_readWithin {depth : Nat} {d : CommandDeclaration} (fits : d.Fits ValidatorSpec.Fits) :
    d.toJson.ReadsAs depth (readWithin depth) d := by
  induction depth generalizing d with
  | zero => exact fun _ _ low => absurd low (Nat.not_lt_zero _)
  | succ depth ih =>
    obtain ⟨arguments, limit, subcommands⟩ := fits
    exact readsAs_readWith arguments limit fun sub member => ih (subcommands sub member)

theorem readsAs {d : CommandDeclaration} (fits : d.Fits ValidatorSpec.Fits) : d.toJson.ReadsAs bound read d :=
  fun j alike _ => readsAs_readWithin fits j alike (Nat.lt_succ_self _)

theorem fits_of_readWithin {depth : Nat} {r : Reading} {d : CommandDeclaration}
    (run : readWithin depth r = .ok d) : d.Fits ValidatorSpec.Fits := by
  induction depth generalizing r d with
  | zero => cases run
  | succ depth ih =>
    obtain ⟨⟨name, description, aliases, group?, details?, examples, arguments, subs, ownerOnly, dmAllowed, hidden,
      rateLimit?, _⟩, given, made⟩ := bind_eq_ok.mp run
    cases made
    have obtained := obtained_of_record given
    obtain ⟨_, _, _, _, _, _, usage, below, _, _, _, rate, _⟩ := obtained_of_record given
    refine .intro ?_ ?_ ?_
    · intro a member
      rcases usage with ⟨_, given⟩ | absent
      · obtain ⟨_, given⟩ := Reader.of_mem_list given member
        exact ArgumentDeclaration.fits_of_read given
      · cases absent
        cases member
    · rintro limit ⟨rfl⟩
      rcases rate with ⟨_, given⟩ | absent
      · exact RateLimitDeclaration.fits_of_read (Reader.of_optional given)
      · cases absent
    · intro sub member
      rcases below with ⟨_, given⟩ | absent
      · obtain ⟨_, given⟩ := Reader.of_mem_list given member
        exact ih given
      · cases absent
        cases member

end CommandDeclaration

namespace Catalog

/-- The numbers declared have the bits that their types have, and only admitted validators are declared. -/
def Fits (admitted : ValidatorSpec → Prop) (c : Catalog) : Prop := ∀ d ∈ c.commands, d.Fits admitted

theorem readsAs {c : Catalog} (fits : c.Fits ValidatorSpec.Fits) : c.toJson.ReadsAs bound read c := by
  have filled : Fills bound fields _ (c.groups, c.commands, ()) :=
    .cons (.list fun g _ => g.readsAs) (.cons (.list fun d member => CommandDeclaration.readsAs (fits d member)) .nil)
  rw [toJson, CommandDeclaration.allToJson_eq]
  exact ReadsAs.record filled (by decide) fun _ run => bind_eq_ok.mpr ⟨_, run, rfl⟩

theorem fits_of_read {r : Reading} {c : Catalog} (run : read r = .ok c) : c.Fits ValidatorSpec.Fits := by
  obtain ⟨⟨groups, commands, _⟩, given, made⟩ := bind_eq_ok.mp run
  cases made
  obtain ⟨_, declared, _⟩ := obtained_of_record given
  intro d member
  rcases declared with ⟨_, given⟩ | absent
  · obtain ⟨_, given⟩ := Reader.of_mem_list given member
    exact CommandDeclaration.fits_of_readWithin given
  · cases absent
    cases member

end Catalog

end ChatCommands
