import ChatCommands.Proofs.Registry.Registration

namespace ChatCommands.Registry

variable {α : Type} {r : Registry α} {admitted : Group → Prop}

theorem mem_of_group? {name : String} {g : Group} (found : r.group? name = some g) :
    g ∈ r.groups ∧ g.name = Text.lower name := by
  rw [group?] at found
  have named := List.find?_some found
  exact ⟨List.mem_of_find?_eq_some found, beq_iff_eq.mp named⟩

theorem group?_eq_none {name : String} : r.group? name = none ↔ ∀ g ∈ r.groups, g.name ≠ Text.lower name := by
  simp [group?]

mutual

/-- The check of a command looks at the groups of the registry, and at none of its commands. -/
theorem checkGroups_with (commands : List (Command α)) :
    (c : Command α) → { r with commands }.checkGroups c = r.checkGroups c
  | .leaf p usage action => by
    rw [checkGroups, checkGroups]
    rfl
  | .branch p children => by
    rw [checkGroups, checkGroups, checkAllGroups_with commands children]
    rfl

theorem checkAllGroups_with (commands : List (Command α)) :
    (cs : List (Command α)) → { r with commands }.checkAllGroups cs = r.checkAllGroups cs
  | [] => by rw [checkAllGroups, checkAllGroups]
  | c :: rest => by
    rw [checkAllGroups, checkAllGroups, checkGroups_with commands c, checkAllGroups_with commands rest]

end

theorem checkGroups_of_mem {commands : List (Command α)} (checked : r.checkAllGroups commands = .ok ()) :
    ∀ c ∈ commands, r.checkGroups c = .ok () := by
  induction commands with
  | nil => exact fun _ member => (nomatch member)
  | cons c rest ih =>
    rw [checkAllGroups] at checked
    obtain ⟨_, first, later⟩ := bind_eq_ok.mp checked
    exact List.forall_mem_cons.mpr ⟨first, ih later⟩

/-- A check of a command that passes has checked its group, and has passed its subcommands. -/
theorem checkGroups_cases {c : Command α} (checked : r.checkGroups c = .ok ()) :
    r.checkGroup c.profile = .ok () ∧ ∀ b ∈ c.children, r.checkGroups b = .ok () := by
  cases c with
  | leaf p u a =>
    rw [checkGroups] at checked
    exact ⟨checked, fun _ member => (nomatch member)⟩
  | branch p children =>
    rw [checkGroups] at checked
    obtain ⟨_, own, checked⟩ := bind_eq_ok.mp checked
    obtain ⟨_, _, below⟩ := bind_eq_ok.mp checked
    exact ⟨own, checkGroups_of_mem below⟩

theorem checkGroup_of_lineage {c : Command α} (checked : r.checkGroups c = .ok ()) {above : List (Command α)}
    {b : Command α} (reach : Command.Lineage [c] above b) : r.checkGroups b = .ok () := by
  induction reach with
  | top member =>
    rw [List.mem_singleton.mp member]
    exact checked
  | child _ member ih => exact (checkGroups_cases ih).2 _ member

theorem group_of_checkGroup {p : Profile} (normal : Name.IsNormal p.group) (checked : r.checkGroup p = .ok ()) :
    ∃ g ∈ r.groups, g.name = p.group := by
  rw [checkGroup] at checked
  split at checked
  · rename_i present
    obtain ⟨g, found⟩ := Option.isSome_iff_exists.mp present
    obtain ⟨member, named⟩ := mem_of_group? found
    exact ⟨g, member, named.trans normal.lowered⟩
  · cases checked

/-- No group was there when another of its name came, in the letter case of lookups. -/
def Apart (groups : List Group) : Prop := groups.Pairwise fun g later => g.name ≠ Text.lower later.name

/-- Names that lookups can spell are distinct. -/
theorem Apart.nodup {groups : List Group} (apart : Apart groups) (lowered : ∀ g ∈ groups, Text.lower g.name = g.name) :
    (groups.map (·.name)).Nodup := by
  refine List.pairwise_map.mpr (apart.imp_of_mem fun _ member differs => ?_)
  rwa [lowered _ member] at differs

/-- The groups of a registry, and its commands under them. -/
structure Grouped (r : Registry α) : Prop where
  default : Group.default ∈ r.groups
  apart : Apart r.groups
  registered : ∀ {above c}, r.Lineage above c → ∃ g ∈ r.groups, g.name = c.profile.group

theorem grouped_new : (new : Registry α).Grouped := by
  refine ⟨List.mem_singleton_self _, List.pairwise_singleton .., fun reach => ?_⟩
  exfalso
  induction reach with
  | top member => cases member
  | child _ _ ih => exact ih

theorem Grouped.group {g : Group} (grouped : r.Grouped) (free : r.group? g.name = none) :
    Grouped { r with groups := r.groups ++ [g] } := by
  have apart : Apart (r.groups ++ [g]) := by
    refine List.pairwise_append.mpr ⟨grouped.apart, List.pairwise_singleton .., fun other member g' new => ?_⟩
    rw [List.mem_singleton.mp new]
    exact group?_eq_none.mp free other member
  refine ⟨List.mem_append_left _ grouped.default, apart, fun reach => ?_⟩
  obtain ⟨other, member, named⟩ := grouped.registered reach
  exact ⟨other, List.mem_append_left _ member, named⟩

theorem Grouped.command {c : Command α} (grouped : r.Grouped) (formed : c.WellFormed none)
    (checked : r.checkGroups c = .ok ()) : Grouped { r with commands := r.commands ++ [c] } := by
  refine ⟨grouped.default, grouped.apart, fun reach => ?_⟩
  rcases Command.Lineage.append reach with old | new
  · exact grouped.registered old
  · have below := new.formed fun b member => List.mem_singleton.mp member ▸ formed
    exact group_of_checkGroup below.fits.grouped (checkGroups_cases (checkGroup_of_lineage checked new)).1

theorem Grows.grouped {after : Registry α} (grows : Grows admitted r after) (grouped : r.Grouped) :
    after.Grouped := by
  induction grows with
  | refl => exact grouped
  | group _ _ run ih =>
    obtain ⟨free, rfl⟩ := addGroup_eq_ok.mp run
    exact ih.group free
  | command _ built run ih =>
    obtain ⟨_, checked, rfl⟩ := addCommand_eq_ok.mp run
    exact ih.command (Draft.wellFormed_of_build built) checked

theorem Reachable.grouped (reach : r.Reachable admitted) : r.Grouped := reach.grown.grouped grouped_new

/-- Each group was there before or was admitted. -/
theorem Grows.origin {after : Registry α} (grows : Grows admitted r after) {g : Group} (member : g ∈ after.groups) :
    g ∈ r.groups ∨ admitted g := by
  induction grows with
  | refl => exact .inl member
  | group _ allowed run ih =>
    obtain ⟨_, rfl⟩ := addGroup_eq_ok.mp run
    rcases List.mem_append.mp member with old | new
    · exact ih old
    · rw [List.mem_singleton.mp new]
      exact .inr allowed
  | command _ _ run ih =>
    obtain ⟨_, _, rfl⟩ := addCommand_eq_ok.mp run
    exact ih member

/-- Groups that are made have names that lookups can spell. -/
theorem Reachable.lowered (reach : r.Reachable Group.Made) : ∀ g ∈ r.groups, Text.lower g.name = g.name := by
  intro g member
  rcases (reach.grows fun _ made => made).origin member with first | made
  · rw [List.mem_singleton.mp first]
    exact Draft.isNormal_default.lowered
  · exact made.normal.lowered

/-- The flags of a top-level command are set nowhere below. -/
theorem Sound.unflagged {above : List (Command α)} {c : Command α} (sound : r.Sound) (reach : r.Lineage above c)
    (below : above ≠ []) : c.profile.ownerOnly = false ∧ c.profile.dmAllowed = false := by
  apply (reach.formed sound.formed).fits.unflagged
  obtain ⟨before, b, rfl⟩ := (List.eq_nil_or_concat' above).resolve_left below
  rw [List.getLast?_concat]
  rfl

/-- What holds of each command `c` of a registry, when `above` are the commands above it. -/
structure Placed (r : Registry α) (above : List (Command α)) (c : Command α) : Prop where
  normal : ∀ name ∈ c.names, Name.IsNormal name
  registered : ∃ g ∈ r.groups, g.name = c.profile.group
  parent : c.profile.parent? = above.getLast?.map Command.fullName
  children : Command.Distinct c.children
  inhabited : ∀ {profile children}, c = .branch profile children → children ≠ []
  legal : ∀ {profile usage action}, c = .leaf profile usage action → usage.Legal
  unflagged : above ≠ [] → c.profile.ownerOnly = false ∧ c.profile.dmAllowed = false

theorem placed_of_lineage {above : List (Command α)} {c : Command α} (sound : r.Sound) (grouped : r.Grouped)
    (reach : r.Lineage above c) : r.Placed above c := by
  have formed := reach.formed sound.formed
  have fits := formed.fits
  have registered := grouped.registered reach
  refine ⟨fits.normal, registered, fits.placed, formed.distinct, ?_, ?_, sound.unflagged reach⟩
  · rintro profile children rfl
    cases formed with
    | branch _ present => exact present
  · rintro profile usage action rfl
    cases formed with
    | leaf _ legal => exact legal

/-- The rules of structure of a registry as a whole. -/
structure Valid (r : Registry α) : Prop where
  default : Group.default ∈ r.groups
  groups : (r.groups.map (·.name)).Nodup
  top : Command.Distinct r.commands
  placed : ∀ {above c}, r.Lineage above c → r.Placed above c

/-- No operation breaks a rule of structure, whether it succeeds, fails, or stops half way. -/
theorem Reachable.registry_valid (reach : r.Reachable Group.Made) : r.Valid := by
  have grouped := reach.grouped
  have distinct := grouped.apart.nodup reach.lowered
  exact ⟨grouped.default, distinct, reach.sound.distinct, placed_of_lineage reach.sound grouped⟩

theorem Reachable.registry_valid_nested :
    Sample.registry.Reachable Group.Made ∧ Sample.registry.commands.map (·.fullName) = ["git"] ∧
      Sample.registry.Valid :=
  ⟨Sample.reachable, by decide +kernel, Sample.reachable.registry_valid⟩

end ChatCommands.Registry
