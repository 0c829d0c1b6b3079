import ChatCommands.Proofs.Registry.Resolve

namespace ChatCommands

theorem Command.Lineage.mono {α : Type} {tops more above : List (Command α)} {c : Command α}
    (reach : Lineage tops above c) (subset : tops ⊆ more) : Lineage more above c := by
  induction reach with
  | top member => exact .top (subset member)
  | child _ member ih => exact .child ih member

namespace Registry

variable {α : Type} {r after : Registry α} {admitted : Group → Prop}

/-- A registry that holds all that `r` holds, in the same order, with what is new behind it. The names of
the new commands were free, so none of them stands in the way of an old one. -/
structure Extends (r after : Registry α) : Prop where
  commands : r.commands <+: after.commands
  groups : r.groups <+: after.groups
  fresh : ∀ c ∈ after.commands, c ∈ r.commands ∨ ∀ name ∈ c.names, r.command? name = none

theorem Extends.refl (r : Registry α) : r.Extends r :=
  ⟨List.prefix_rfl, List.prefix_rfl, fun _ member => .inl member⟩

theorem Extends.command?_eq_none (extended : r.Extends after) {token : String}
    (free : after.command? token = none) : r.command? token = none := by
  refine Command.find?_eq_none.mpr fun c member => ?_
  exact Command.find?_eq_none.mp free c (extended.commands.subset member)

theorem Extends.command?_eq_some (extended : r.Extends after) (sound : r.Sound) (sound' : after.Sound)
    {token : String} {c : Command α} (found : r.command? token = some c) : after.command? token = some c := by
  obtain ⟨member, named⟩ := (Command.find?_eq_some sound.distinct).mp found
  exact (Command.find?_eq_some sound'.distinct).mpr ⟨extended.commands.subset member, named⟩

theorem Extends.group?_eq_some (extended : r.Extends after) {name : String} {g : Group}
    (found : r.group? name = some g) : after.group? name = some g := by
  obtain ⟨later, whole⟩ := extended.groups
  rw [group?] at found
  rw [group?, ← whole, List.find?_append, found, Option.some_or]

/-- A command keeps its place, and in a sound registry nothing but the place decides what a path leads to. -/
theorem Extends.resolve?_eq_some (extended : r.Extends after) (sound : r.Sound) (sound' : after.Sound)
    {path : String} {c : Command α} (found : r.resolve? path = some c) : after.resolve? path = some c := by
  obtain ⟨above, place, answer⟩ := sound.follow?_eq_some.mp found
  exact (sound'.resolve?_eq_some (place.mono extended.commands.subset)).mpr answer

theorem Grows.extended (grows : Grows admitted r after) : r.Extends after := by
  induction grows with
  | refl => exact .refl r
  | group _ _ run ih =>
    obtain ⟨_, rfl⟩ := addGroup_eq_ok.mp run
    exact ⟨ih.commands, ih.groups.trans (List.prefix_append ..), ih.fresh⟩
  | @command before _ d new _ _ run ih =>
    obtain ⟨free, _, rfl⟩ := addCommand_eq_ok.mp run
    refine ⟨ih.commands.trans (List.prefix_append ..), ih.groups, fun c member => ?_⟩
    rcases List.mem_append.mp member with earlier | last
    · exact ih.fresh c earlier
    · rw [List.mem_singleton.mp last]
      exact .inr fun name named => ih.command?_eq_none (free name named)

theorem grows_any (r : Registry α) (op : Registration α) : Grows (fun _ => True) r (r.register op).1 := by
  refine grows_register (fun _ _ => trivial) ?_
  cases op <;> simp [Registration.Admits]

/-- No operation on a registry changes what a path or the name of a group leads to, once it leads somewhere.
Whether the operation succeeds, fails, or stops half way, it only adds, and no command that it adds answers
to a name that was taken. -/
theorem Reachable.registration_stable (reach : r.Reachable admitted) (op : Registration α) :
    (∀ {path c}, r.resolve? path = some c → (r.register op).1.resolve? path = some c) ∧
    (∀ {name g}, r.group? name = some g → (r.register op).1.group? name = some g) ∧
    r.Extends (r.register op).1 := by
  have grows := r.grows_any op
  have extended := grows.extended
  have sound' := grows.sound reach.sound
  exact ⟨fun found => extended.resolve?_eq_some reach.sound sound' found, extended.group?_eq_some, extended⟩

namespace Sample

/-- Its alias, in other letters, is an alias of the sample command. -/
def intruder : Draft Unit where
  name := "grep"
  aliases := ["g"]
  documentation := ⟨"Search", none, []⟩
  action? := some ()

/-- The last of these groups is there already, so the operation stops after the first. -/
def moreGroups : List Group := [⟨"games", "Games", "Games"⟩, tools]

end Sample

/-- An intruder is refused, groups are added half way, and all the while a nested command is found by its
aliases, and a group by its name. -/
theorem Reachable.registration_stable_sample :
    Sample.registry.Reachable Group.Made ∧
      (∃ c, Sample.registry.resolve? "G remote NEW" = some c ∧
        (Sample.registry.register (.draft Sample.intruder)).2.isSome = true ∧
        (Sample.registry.register (.draft Sample.intruder)).1.resolve? "G remote NEW" = some c) ∧
      Sample.registry.group? "TOOLS" = some Sample.tools ∧
      (Sample.registry.register (.groups Sample.moreGroups)).2.isSome = true ∧
      (Sample.registry.register (.groups Sample.moreGroups)).1.group? "TOOLS" = some Sample.tools := by
  have resolves : (Sample.registry.resolve? "G remote NEW").isSome = true := by decide +kernel
  have grouped : Sample.registry.group? "TOOLS" = some Sample.tools := by decide +kernel
  obtain ⟨c, found⟩ := Option.isSome_iff_exists.mp resolves
  obtain ⟨paths, _⟩ := Sample.reachable.registration_stable (.draft Sample.intruder)
  obtain ⟨_, groups, _⟩ := Sample.reachable.registration_stable (.groups Sample.moreGroups)
  exact ⟨Sample.reachable, ⟨c, found, by decide +kernel, paths found⟩, grouped, by decide +kernel, groups grouped⟩

end Registry

end ChatCommands
