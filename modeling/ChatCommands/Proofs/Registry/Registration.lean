import ChatCommands.Proofs.Registry.Lookup

namespace ChatCommands

/-- A group as it is made, under its own title or another. -/
def Group.Made (g : Group) : Prop :=
  ∃ name description made, Group.make name description = .ok made ∧ g = { made with title := g.title }

theorem Group.Made.normal {g : Group} (made : g.Made) : Name.IsNormal g.name := by
  obtain ⟨_, _, plain, run, shape⟩ := made
  have normal : Name.IsNormal plain.name := Group.name_of_make run
  rw [shape]
  exact normal

/-- The operations that change a registry. A command that is added as such was built from some draft, and a catalog
is read with some language of notices. -/
inductive Registration (α : Type) where
  | group (g : Group)
  | groups (gs : List Group)
  | draft (d : Draft α)
  | built (c : Command α) (origin : ∃ d : Draft α, d.build = .ok c)
  | catalog (engine : TemplateEngine) (c : Catalog) (bindings : Bindings α)
  | builtins (actions : BuiltinActions α)

/-- The groups that an operation brings along ready-made are all admitted. -/
def Registration.Admits {α : Type} (admitted : Group → Prop) : Registration α → Prop
  | group g => admitted g
  | groups gs => ∀ g ∈ gs, admitted g
  | _ => True

namespace Registry

variable {α : Type} {r : Registry α} {admitted : Group → Prop}

/-- What an operation that does all or nothing leaves behind. -/
def settle (r : Registry α) : Except DefinitionError (Registry α) → Registry α × Option DefinitionError
  | .ok after => (after, none)
  | .error e => (r, some e)

/-- Carries out one operation. Yields the registry afterwards, and the fault of an operation that failed. -/
def register (r : Registry α) : Registration α → Registry α × Option DefinitionError
  | .group g => r.settle (r.addGroup g)
  | .groups gs => r.addGroups gs
  | .draft d => r.settle (r.addDraft d)
  | .built c _ => r.settle (r.addCommand c)
  | .catalog _ c bindings => r.settle (r.addCatalog c bindings)
  | .builtins actions => r.addBuiltins actions

/-- The registries that any operations lead to, whether they succeed or fail. -/
inductive Reachable (admitted : Group → Prop) : Registry α → Prop
  | new : Reachable admitted .new
  | configured {config actions r} : forConfig config actions = .ok r → Reachable admitted r
  | step {r op} : Reachable admitted r → op.Admits admitted → Reachable admitted (r.register op).1

/-- Growth by single groups and single commands, none of which is refused. All operations come down to it. -/
inductive Grows (admitted : Group → Prop) (r : Registry α) : Registry α → Prop
  | refl : Grows admitted r r
  | group {a b g} : Grows admitted r a → admitted g → a.addGroup g = .ok b → Grows admitted r b
  | command {a b d c} : Grows admitted r a → Draft.build d = .ok c → a.addCommand c = .ok b → Grows admitted r b

theorem Grows.trans {a b : Registry α} (first : Grows admitted r a) (later : Grows admitted a b) :
    Grows admitted r b := by
  induction later with
  | refl => exact first
  | group _ allowed run ih => exact .group ih allowed run
  | command _ built run ih => exact .command ih built run

theorem grows_settle {outcome : Except DefinitionError (Registry α)}
    (grows : ∀ after, outcome = .ok after → Grows admitted r after) : Grows admitted r (r.settle outcome).1 := by
  cases outcome with
  | ok after => exact grows after rfl
  | error e => exact .refl

theorem grows_addGroups {gs : List Group} (allowed : ∀ g ∈ gs, admitted g) :
    Grows admitted r (r.addGroups gs).1 := by
  induction gs generalizing r with
  | nil => exact .refl
  | cons g rest ih =>
    obtain ⟨first, later⟩ := List.forall_mem_cons.mp allowed
    rw [addGroups]
    cases run : r.addGroup g with
    | error e => exact .refl
    | ok after => exact (Grows.group .refl first run).trans (ih later)

theorem grows_addDraft {d : Draft α} {after : Registry α} (run : r.addDraft d = .ok after) :
    Grows admitted r after := by
  obtain ⟨c, built, added⟩ := bind_eq_ok.mp run
  exact .command .refl built added

theorem grows_addDrafts {ds : List (Draft α)} : Grows admitted r (r.addDrafts ds).1 := by
  induction ds generalizing r with
  | nil => exact .refl
  | cons d rest ih =>
    rw [addDrafts]
    cases run : r.addDraft d with
    | error e => exact .refl
    | ok after => exact (grows_addDraft run).trans ih

theorem grows_foldlM_addDraft {ds : List (Draft α)} {after : Registry α}
    (run : ds.foldlM addDraft r = .ok after) : Grows admitted r after := by
  induction ds generalizing r with
  | nil =>
    cases run
    exact .refl
  | cons d rest ih =>
    rw [List.foldlM_cons] at run
    obtain ⟨next, added, run⟩ := bind_eq_ok.mp run
    exact (grows_addDraft added).trans (ih run)

theorem foldlM_addDraft_eq (ds : List (Draft α)) :
    ds.foldlM addDraft r =
      match r.addDrafts ds with
      | (after, none) => .ok after
      | (_, some e) => .error e := by
  induction ds generalizing r with
  | nil => rfl
  | cons d rest ih =>
    rw [List.foldlM_cons, addDrafts]
    cases r.addDraft d with
    | error e => rfl
    | ok after => exact ih

theorem made_of_toGroup {d : GroupDeclaration} {g : Group} (run : d.toGroup = .ok g) : g.Made := by
  obtain ⟨plain, named, made⟩ := bind_eq_ok.mp run
  cases made
  exact ⟨d.name, d.description, plain, named, rfl⟩

theorem made_of_mem_toGroups {ds : List GroupDeclaration} {gs : List Group}
    (run : ds.mapM (·.toGroup) = .ok gs) : ∀ g ∈ gs, g.Made := by
  have each := forall₂_of_mapM run
  clear run
  induction each with
  | nil => exact List.forall_mem_nil _
  | cons made _ ih => exact List.forall_mem_cons.mpr ⟨made_of_toGroup made, ih⟩

theorem made_builtin : Builtin.group.Made :=
  ⟨"util", "Built-in commands", ⟨"util", "Built-in commands", "Util"⟩, by decide +kernel, rfl⟩

section

variable (makes : ∀ g : Group, g.Made → admitted g)
include makes

theorem grows_addCatalog [TemplateEngine] {c : Catalog} {bindings : Bindings α} {after : Registry α}
    (run : r.addCatalog c bindings = .ok after) : Grows admitted r after := by
  obtain ⟨groups, declared, run⟩ := bind_eq_ok.mp run
  have allowed : ∀ g ∈ groups, admitted g := fun g member => makes g (made_of_mem_toGroups declared g member)
  have grouped := grows_addGroups (r := r) allowed
  cases staging : r.addGroups groups with
  | mk staged fault? =>
    rw [staging] at run grouped
    cases fault? with
    | some e => cases run
    | none =>
      obtain ⟨_, same, run⟩ := bind_eq_ok.mp run
      cases same
      obtain ⟨drafts, _, run⟩ := bind_eq_ok.mp run
      exact grouped.trans (grows_foldlM_addDraft run)

theorem grows_addBuiltins {actions : BuiltinActions α} : Grows admitted r (r.addBuiltins actions).1 := by
  rw [addBuiltins]
  cases run : r.addGroup Builtin.group with
  | error e => exact .refl
  | ok after => exact (Grows.group .refl (makes _ made_builtin) run).trans grows_addDrafts

theorem grows_register {op : Registration α} (allowed : op.Admits admitted) :
    Grows admitted r (r.register op).1 := by
  cases op with
  | group g => exact grows_settle fun after run => .group .refl allowed run
  | groups gs => exact grows_addGroups allowed
  | draft d => exact grows_settle fun after run => grows_addDraft run
  | built c origin =>
    obtain ⟨d, built⟩ := origin
    exact grows_settle fun after run => .command .refl built run
  | catalog _ c bindings => exact grows_settle fun after run => grows_addCatalog makes run
  | builtins actions => exact grows_addBuiltins makes

theorem Reachable.grows (reach : r.Reachable admitted) : Grows admitted Registry.new r := by
  induction reach with
  | new => exact .refl
  | @configured config actions r run =>
    unfold forConfig at run
    split at run
    · have grown : Grows admitted Registry.new (Registry.new.addBuiltins actions).1 := grows_addBuiltins makes
      split at run
      · rename_i built
        cases run
        rw [built] at grown
        exact grown
      · cases run
    · cases run
      exact .refl
  | step _ allowed ih => exact ih.trans (grows_register makes allowed)

end

theorem addGroup_eq_ok {g : Group} {after : Registry α} :
    r.addGroup g = .ok after ↔ r.group? g.name = none ∧ after = { r with groups := r.groups ++ [g] } := by
  rw [addGroup]
  cases found : r.group? g.name with
  | some other => exact ⟨fun run => (nomatch run), fun ⟨absent, _⟩ => (nomatch absent)⟩
  | none =>
    constructor
    · intro run
      cases run
      exact ⟨rfl, rfl⟩
    · rintro ⟨_, rfl⟩
      rfl

theorem addCommand_eq_ok {c : Command α} {after : Registry α} :
    r.addCommand c = .ok after ↔ (∀ name ∈ c.names, r.command? name = none) ∧ r.checkGroups c = .ok () ∧
      after = { r with commands := r.commands ++ [c] } := by
  have scan : (c.names.find? fun name => (r.command? name).isSome) = none ↔
      ∀ name ∈ c.names, r.command? name = none := by
    simp [List.find?_eq_none]
  rw [← scan, addCommand]
  cases c.names.find? fun name => (r.command? name).isSome with
  | some taken => exact ⟨fun run => (nomatch run), fun ⟨absent, _⟩ => (nomatch absent)⟩
  | none =>
    constructor
    · intro run
      obtain ⟨_, checked, made⟩ := bind_eq_ok.mp run
      cases made
      exact ⟨rfl, checked, rfl⟩
    · rintro ⟨_, checked, rfl⟩
      exact bind_eq_ok.mpr ⟨(), checked, rfl⟩

theorem sound_new : (new : Registry α).Sound := ⟨Command.distinct_nil, fun _ member => (nomatch member)⟩

/-- A command whose names are all free at the top keeps the top level distinct. -/
theorem Sound.command {c : Command α} (sound : r.Sound) (formed : c.WellFormed none)
    (free : ∀ name ∈ c.names, r.command? name = none) : Sound { r with commands := r.commands ++ [c] } := by
  refine ⟨sound.distinct.append formed.fits.distinct fun name member b sibling shared => ?_, fun b member => ?_⟩
  · have silent := Command.find?_eq_none.mp (free name member) b sibling
    rw [(formed.fits.normal name member).lowered, Command.answersTo_iff.mpr shared] at silent
    cases silent
  · rcases List.mem_append.mp member with earlier | new
    · exact sound.formed b earlier
    · rw [List.mem_singleton.mp new]
      exact formed

theorem Grows.sound {after : Registry α} (grows : Grows admitted r after) (sound : r.Sound) : after.Sound := by
  induction grows with
  | refl => exact sound
  | group _ _ run ih =>
    obtain ⟨_, rfl⟩ := addGroup_eq_ok.mp run
    exact ⟨ih.distinct, ih.formed⟩
  | command _ built run ih =>
    obtain ⟨free, _, rfl⟩ := addCommand_eq_ok.mp run
    exact ih.command (Draft.wellFormed_of_build built) free

/-- Operations come down to growth whatever groups they bring along. -/
theorem Reachable.grown (reach : r.Reachable admitted) : Grows (fun _ => True) Registry.new r := by
  have any : r.Reachable fun _ => True := by
    induction reach with
    | new => exact .new
    | configured run => exact .configured run
    | @step r op _ _ ih =>
      refine .step ih ?_
      cases op <;> simp [Registration.Admits]
  exact any.grows fun _ _ => trivial

/-- Lookups can rely on every registry that operations lead to. -/
theorem Reachable.sound (reach : r.Reachable admitted) : r.Sound := reach.grown.sound sound_new

namespace Sample

def tools : Group := ⟨"tools", "Tools", "Tools"⟩

theorem made_tools : tools.Made := ⟨" Tools", "Tools", tools, by decide +kernel, rfl⟩

/-- A branch, in which there is a leaf and another branch. -/
def git : Draft Unit where
  name := "Git"
  aliases := ["G"]
  group? := some "Tools"
  documentation := ⟨"Version control", none, []⟩
  subcommands := [
    { name := "status", documentation := ⟨"Show the state", none, []⟩, action? := some () },
    { name := "remote", documentation := ⟨"Other copies", none, []⟩
      subcommands := [
        { name := "add", aliases := ["New"], documentation := ⟨"Add a copy", none, []⟩
          arguments := [{ name := "url" }], action? := some () }] }]

def operations : List (Registration Unit) := [.group tools, .draft git, .draft git]

/-- The registry with one nested command. The second attempt to add it fails. -/
def registry : Registry Unit := operations.foldl (fun r op => (r.register op).1) .new

theorem reachable : registry.Reachable Group.Made :=
  .step (.step (.step .new made_tools) trivial) trivial

end Sample

end Registry

end ChatCommands
