import ChatCommands.Proofs.Help

namespace ChatCommands

variable {α : Type}

/-- To leave parts out makes a joined text shorter, unless no part is left. -/
theorem length_intercalate_lt {sep : String} (separates : 0 < sep.length) {parts all : List String}
    (sub : parts.Sublist all) (some : parts ≠ []) (proper : parts ≠ all) :
    (sep.intercalate parts).length < (sep.intercalate all).length := by
  induction sub with
  | slnil => exact absurd rfl some
  | @cons parts all part sub ih =>
    have present : all ≠ [] := by
      rintro rfl
      exact some (List.eq_nil_of_sublist_nil sub)
    have atMost : (sep.intercalate parts).length ≤ (sep.intercalate all).length := by
      by_cases same : parts = all
      · exact Nat.le_of_eq (by rw [same])
      · exact Nat.le_of_lt (ih some same)
    rw [String.intercalate_cons_of_ne_nil present, String.length_append, String.length_append]
    omega
  | @cons_cons parts all part sub ih =>
    have differs : parts ≠ all := fun same => proper (congrArg _ same)
    have present : all ≠ [] := by
      rintro rfl
      exact differs (List.eq_nil_of_sublist_nil sub)
    rw [String.intercalate_cons_of_ne_nil present, String.length_append, String.length_append]
    by_cases last : parts = []
    · rw [last, String.intercalate_singleton]
      omega
    · have shorter := ih last differs
      rw [String.intercalate_cons_of_ne_nil last, String.length_append, String.length_append]
      omega

theorem map_filter_ne {β γ : Type} (f : β → γ) {keep : β → Bool} {xs : List β} (left : ∃ x ∈ xs, keep x = false) :
    (xs.filter keep).map f ≠ xs.map f := by
  obtain ⟨x, member, out⟩ := left
  have fewer : (xs.filter keep).length < xs.length :=
    List.length_filter_lt_length_iff_exists.mpr ⟨x, member, Bool.not_eq_true _ ▸ out⟩
  intro same
  have lengths := congrArg List.length same
  rw [List.length_map, List.length_map] at lengths
  exact Nat.ne_of_lt fewer lengths

namespace Command

/-- The command without those of its subcommands that are hidden. -/
def withoutHidden : Command α → Command α
  | .branch p children => .branch p (children.filter fun c => !c.profile.hidden)
  | .leaf p usage action => .leaf p usage action

theorem profile_withoutHidden (c : Command α) : c.withoutHidden.profile = c.profile := by
  cases c <;> rfl

theorem withoutHidden_eq {c : Command α} (none : ∀ b ∈ c.children, b.profile.hidden = false) :
    c.withoutHidden = c := by
  cases c with
  | branch p children =>
    have all : children.filter (fun b => !b.profile.hidden) = children :=
      List.filter_eq_self.mpr fun b member => by rw [none b member]; rfl
    rw [withoutHidden, all]
  | leaf p usage action => rfl

/-- The usage of a branch is shorter without the hidden subcommands. -/
theorem usageText_withoutHidden_ne {c : Command α} (visible : ∃ b ∈ c.children, b.profile.hidden = false)
    (hidden : ∃ b ∈ c.children, b.profile.hidden = true) : c.withoutHidden.usageText ≠ c.usageText := by
  intro same
  cases c with
  | leaf =>
    obtain ⟨b, member, _⟩ := visible
    cases member
  | branch p children =>
    obtain ⟨b, member, shown⟩ := visible
    have kept : children.filter (fun b => !b.profile.hidden) ≠ [] :=
      List.ne_nil_of_mem (List.mem_filter.mpr ⟨member, by rw [shown]; rfl⟩)
    obtain ⟨veiled, listed, hides⟩ := hidden
    have fewer : (children.filter fun b => !b.profile.hidden).map name ≠ children.map name :=
      map_filter_ne name ⟨veiled, listed, by rw [hides]; rfl⟩
    have shorter := length_intercalate_lt (by decide : 0 < "/".length) (List.filter_sublist.map name)
      (by simpa using kept) fewer
    rw [withoutHidden, usageText, usageText, String.append_left_inj, String.append_right_inj] at same
    rw [same] at shorter
    exact Nat.lt_irrefl _ shorter

end Command

namespace Help

variable {c c' : Command α}

/-- Of what is below a command, its help tells the usage only. -/
theorem ofCommand_inj (same : c.profile = c'.profile) (lead : String) :
    ofCommand lead c = ofCommand lead c' ↔ c.usageText = c'.usageText := by
  rw [ofCommand_eq, ofCommand_eq, same, String.append_left_inj, String.append_left_inj, String.append_right_inj]

theorem branchUsage_inj (same : c.profile = c'.profile) (lead : String) :
    branchUsage lead c = branchUsage lead c' ↔ c.usageText = c'.usageText := by
  have hints : hint lead c = hint lead c' := by
    rw [hint, hint, Command.fullName, Command.fullName, same]
  rw [branchUsage, branchUsage, hints, String.append_left_inj, usageLine_eq, usageLine_eq, String.append_left_inj,
    String.append_right_inj]

/-- Hidden subcommands are listed like all others: without them, the texts that name the subcommands of a branch
read the same only if there are none. Nothing but names is told, so that what lies further below stays hidden. -/
theorem unchanged_iff_none_hidden {c : Command α} (visible : ∃ b ∈ c.children, b.profile.hidden = false)
    (lead : String) :
    (branchUsage lead c.withoutHidden = branchUsage lead c ↔ ∀ b ∈ c.children, b.profile.hidden = false) ∧
    (ofCommand lead c.withoutHidden = ofCommand lead c ↔ ∀ b ∈ c.children, b.profile.hidden = false) ∧
    ∀ {p children} {others : List (Command α)}, c = .branch p children →
      others.map Command.name = children.map Command.name →
        branchUsage lead (.branch p others) = branchUsage lead c ∧
        ofCommand lead (.branch p others) = ofCommand lead c := by
  have unchanged : c.withoutHidden.usageText = c.usageText ↔ ∀ b ∈ c.children, b.profile.hidden = false := by
    constructor
    · intro same b member
      by_contra hidden
      exact Command.usageText_withoutHidden_ne visible ⟨b, member, Bool.of_not_eq_false hidden⟩ same
    · exact fun none => congrArg Command.usageText (Command.withoutHidden_eq none)
  rw [branchUsage_inj c.profile_withoutHidden, ofCommand_inj c.profile_withoutHidden]
  refine ⟨unchanged, unchanged, ?_⟩
  rintro p children others rfl names
  have profiles : (Command.branch p others).profile = (Command.branch p children).profile := rfl
  have usage : (Command.branch p others).usageText = (Command.branch p children).usageText := by
    rw [Command.usageText, Command.usageText, names]
  exact ⟨(branchUsage_inj profiles lead).mpr usage, (ofCommand_inj profiles lead).mpr usage⟩

namespace Sample

/-- A branch whose second subcommand may be hidden. -/
def git (hidden : Bool) : Draft Unit where
  name := "git"
  documentation := ⟨"Version control", none, []⟩
  subcommands := [
    { name := "status", documentation := ⟨"Show the state", none, []⟩, action? := some () },
    { name := "gc", hidden, documentation := ⟨"Clean up", none, []⟩, action? := some () }]

theorem exists_built (hidden : Bool) : ∃ c, (git hidden).build = .ok c ∧
    (∃ b ∈ c.children, b.profile.hidden = false) ∧ ((∀ b ∈ c.children, b.profile.hidden = false) ↔ hidden = false) := by
  have flags : (git hidden).build.toOption.map (fun c => c.children.map (·.profile.hidden)) = some [false, hidden] := by
    cases hidden <;> decide +kernel
  obtain ⟨c, made, flagged⟩ := Option.map_eq_some_iff.mp flags
  have built : (git hidden).build = .ok c := by
    cases run : (git hidden).build with
    | error e =>
      rw [run] at made
      cases made
    | ok other =>
      rw [run] at made
      cases made
      rfl
  have all : (∀ b ∈ c.children, b.profile.hidden = false) ↔ ∀ flag ∈ [false, hidden], flag = false := by
    rw [← flagged, List.forall_mem_map]
  refine ⟨c, built, ?_, by rw [all]; simp⟩
  have first : false ∈ c.children.map (·.profile.hidden) := flagged ▸ List.mem_cons_self ..
  exact List.mem_map.mp first

end Sample

/-- The same branch with a subcommand that is hidden, and with one that is not. -/
theorem unchanged_iff_none_hidden_two :
    (∃ c, (Sample.git false).build = .ok c ∧ branchUsage "!" c.withoutHidden = branchUsage "!" c ∧
      ofCommand "!" c.withoutHidden = ofCommand "!" c) ∧
    ∃ c, (Sample.git true).build = .ok c ∧ branchUsage "!" c.withoutHidden ≠ branchUsage "!" c := by
  obtain ⟨plain, built, visible, none⟩ := Sample.exists_built false
  obtain ⟨veiled, built', visible', some⟩ := Sample.exists_built true
  obtain ⟨usage, help, _⟩ := unchanged_iff_none_hidden visible "!"
  obtain ⟨usage', _, _⟩ := unchanged_iff_none_hidden visible' "!"
  refine ⟨⟨plain, built, usage.mpr (none.mpr rfl), help.mpr (none.mpr rfl)⟩, veiled, built', fun same => ?_⟩
  cases some.mp (usage'.mp same)

/-- The usage of a branch and its help both name a subcommand that is hidden. -/
theorem hidden_subcommand_listed :
    (¬∀ (d : Draft Unit) (c : Command Unit) (lead : String), d.build = .ok c →
      (∃ b ∈ c.children, b.profile.hidden = false) →
        branchUsage lead c.withoutHidden = branchUsage lead c ∧ ofCommand lead c.withoutHidden = ofCommand lead c) ∧
    (Sample.git true).build.toOption.map (branchUsage "!") =
      some "The correct usage is `!git (status/gc)`\n\n(Use `!help git` for more details)" ∧
    (Sample.git true).build.toOption.map (ofCommand "!") =
      some "`!git`: Version control\n\n**Usage**: `!git (status/gc)`" := by
  refine ⟨fun always => ?_, by decide +kernel, by decide +kernel⟩
  obtain ⟨c, built, visible, some⟩ := Sample.exists_built true
  have same := (branchUsage_inj c.profile_withoutHidden "!").mp (always _ _ "!" built visible).1
  have hidden : ∃ b ∈ c.children, b.profile.hidden = true := by
    by_contra none
    cases some.mp fun b member => Bool.eq_false_iff.mpr fun flag => none ⟨b, member, flag⟩
  exact Command.usageText_withoutHidden_ne visible hidden same

end Help

end ChatCommands
