import ChatCommands.Proofs.Help
import ChatCommands.Proofs.Registry.Resolve

namespace ChatCommands

variable {α : Type}

/-- Behind the path of the commands above, a command answers to each of its names. -/
theorem Command.Lineage.answer_under {tops : List (Command α)} (sound : ∀ c ∈ tops, c.WellFormed none)
    {above : List (Command α)} {c : Command α} (reach : Lineage tops above c) {name : String} (named : name ∈ c.names) :
    Answer (above ++ [c]) (Text.words (Name.under c.profile.parent? name)) := by
  have fits := (reach.formed sound).fits
  have normal := fits.normal name named
  have answers : c.answersTo (Text.lower name) = true := by
    rw [normal.lowered]
    exact answersTo_iff.mpr named
  rw [Name.words_under _ normal.word, fits.placed]
  rcases reach.cases_above with ⟨rfl, _⟩ | ⟨before, b, rfl, upper, _⟩
  · exact .cons answers .nil
  · rw [List.getLast?_concat, Option.map_some, Option.map_some, Option.getD_some, upper.words_fullName sound]
    exact answer_concat_iff.mpr ⟨_, name, rfl, upper.answer_names sound, answers⟩

namespace Registry

open Help

variable {r : Registry α} {admitted : Group → Prop} {above : List (Command α)} {c : Command α}

/-- What is told of the command at a path is told of a command with as many others above it as the path has words
before the last. -/
theorem Sound.exists_told (sound : r.Sound) {β : Type} {tell : Command α → β} {path : String} {told : β}
    (found : (r.resolve? path).map tell = some told) :
    ∃ above c, r.Lineage above c ∧ above.length + 1 = (Text.words path).length ∧ tell c = told := by
  obtain ⟨c, resolved, same⟩ := Option.map_eq_some_iff.mp found
  obtain ⟨above, place, answer⟩ := sound.follow?_eq_some.mp resolved
  have depth := answer.length_eq
  rw [List.length_append] at depth
  exact ⟨above, c, place, depth, same⟩

theorem Sound.resolve?_under (sound : r.Sound) (place : r.Lineage above c) {name : String} (named : name ∈ c.names) :
    r.resolve? (Name.under c.profile.parent? name) = some c :=
  (sound.resolve?_eq_some place).mpr (place.answer_under sound.formed named)

/-- A single word leads to commands at the top only. -/
theorem Sound.resolve?_name (sound : r.Sound) (place : r.Lineage above c) {name : String} (named : name ∈ c.names) :
    r.resolve? name = some c ↔ above = [] := by
  have fits := (place.formed sound.formed).fits
  constructor
  · intro found
    have answer := (sound.resolve?_eq_some place).mp found
    rw [(fits.normal name named).word.words_eq] at answer
    have one := answer.length_eq
    rw [List.length_append] at one
    exact List.eq_nil_of_length_eq_zero (Nat.succ.inj one)
  · rintro rfl
    have alone : Name.under c.profile.parent? name = name := by
      rw [fits.placed]
      rfl
    rw [← alone]
    exact sound.resolve?_under place named

/-- The help of a command shows each of its aliases right behind the lead. What is shown leads to the command just
when that stands at the top. What leads there from anywhere is the alias behind the path of the commands above. -/
theorem Reachable.aliases_lead_from_top (reach : r.Reachable admitted) (place : r.Lineage above c) (lead : String) :
    ofCommand lead c = opening lead c.profile ++ aliasSection (aliasInvocations lead c.profile) ++
      "\n\n**Usage**: `" ++ lead ++ c.usageText ++ "`" ++ exampleSection lead c.profile.documentation.examples ∧
    (∀ path, lead ++ path ∈ aliasInvocations lead c.profile → (r.resolve? path = some c ↔ above = [])) ∧
    ∀ name ∈ c.profile.aliases, r.resolve? (Name.under c.profile.parent? name) = some c := by
  have sound := reach.sound
  refine ⟨ofCommand_eq lead c, fun path shown => ?_, fun name listed => ?_⟩
  · obtain ⟨name, listed, same⟩ := List.mem_map.mp shown
    rw [← (String.append_right_inj lead).mp same]
    exact sound.resolve?_name place (List.mem_cons_of_mem _ listed)
  · exact sound.resolve?_under place (List.mem_cons_of_mem _ listed)

/-- The alias of the command at the top is enough, that of the innermost one is not. -/
theorem Reachable.aliases_lead_from_top_nested :
    Sample.registry.Reachable Group.Made ∧
    (∃ c, Sample.registry.Lineage [] c ∧ "!" ++ "g" ∈ aliasInvocations "!" c.profile ∧
      ofCommand "!" c = "`!git`: Version control\n\n**Aliases**: `!g`\n\n**Usage**: `!git (status/remote)`" ∧
      Sample.registry.resolve? "g" = some c) ∧
    ∃ above c, Sample.registry.Lineage above c ∧ above ≠ [] ∧ "new" ∈ c.profile.aliases ∧
      Sample.registry.resolve? "git remote new" = some c := by
  refine ⟨Sample.reachable, ?_, ?_⟩
  · have found : (Sample.registry.resolve? "git").map (fun c => (c.profile.aliases, ofCommand "!" c)) =
        some (["g"], "`!git`: Version control\n\n**Aliases**: `!g`\n\n**Usage**: `!git (status/remote)`") := by
      decide +kernel
    obtain ⟨above, c, place, depth, told⟩ := Sample.reachable.sound.exists_told found
    obtain ⟨aliases, text⟩ := Prod.mk.inj told
    have one : (Text.words "git").length = 1 := by decide +kernel
    obtain rfl : above = [] := List.eq_nil_of_length_eq_zero (by omega)
    have shown : "!" ++ "g" ∈ aliasInvocations "!" c.profile :=
      List.mem_map.mpr ⟨"g", aliases ▸ List.mem_singleton_self "g", rfl⟩
    obtain ⟨_, leads, _⟩ := Sample.reachable.aliases_lead_from_top place "!"
    exact ⟨c, place, shown, text, (leads "g" shown).mpr rfl⟩
  · have found : (Sample.registry.resolve? "git remote add").map (fun c => (c.profile.aliases, c.profile.parent?)) =
        some (["new"], some "git remote") := by decide +kernel
    obtain ⟨above, c, place, depth, told⟩ := Sample.reachable.sound.exists_told found
    obtain ⟨aliases, parent⟩ := Prod.mk.inj told
    have three : (Text.words "git remote add").length = 3 := by decide +kernel
    have listed : "new" ∈ c.profile.aliases := aliases ▸ List.mem_singleton_self "new"
    obtain ⟨_, _, always⟩ := Sample.reachable.aliases_lead_from_top place "!"
    have nested : above ≠ [] := by
      rintro rfl
      cases three.symm.trans depth.symm
    have leads := always "new" listed
    rw [parent] at leads
    exact ⟨above, c, place, nested, listed, leads⟩

/-- The help of a nested command shows an alias by which it cannot be called. -/
theorem alias_of_nested_leads_nowhere :
    (¬∀ (r : Registry Unit) (above : List (Command Unit)) (c : Command Unit) (lead path : String),
      r.Reachable Group.Made → r.Lineage above c → lead ++ path ∈ aliasInvocations lead c.profile →
        r.resolve? path = some c) ∧
    (Sample.registry.resolve? "git remote add").map (ofCommand "!") =
      some "`!git remote add`: Add a copy\n\n**Aliases**: `!new`\n\n**Usage**: `!git remote add <url>`" ∧
    (Sample.registry.resolve? "new").isNone = true := by
  have unknown : (Sample.registry.resolve? "new").isNone = true := by decide +kernel
  refine ⟨fun always => ?_, by decide +kernel, unknown⟩
  have found : (Sample.registry.resolve? "git remote add").map (·.profile.aliases) = some ["new"] := by decide +kernel
  obtain ⟨above, c, place, _, aliases⟩ := Sample.reachable.sound.exists_told found
  have shown : "!" ++ "new" ∈ aliasInvocations "!" c.profile :=
    List.mem_map.mpr ⟨"new", aliases ▸ List.mem_singleton_self "new", rfl⟩
  rw [always _ _ _ _ _ Sample.reachable place shown] at unknown
  cases unknown

end Registry

end ChatCommands
