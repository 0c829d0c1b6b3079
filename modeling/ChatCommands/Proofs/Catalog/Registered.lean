import ChatCommands.Proofs.Catalog.Leaves
import ChatCommands.Proofs.Registry.Resolve

namespace ChatCommands

variable {α : Type}

namespace Command

mutual

theorem lineage_of_mem_leaves {tops above : List (Command α)} {leaf : Command α} :
    (c : Command α) → Lineage tops above c → leaf ∈ c.leaves → ∃ above', Lineage tops above' leaf
  | .leaf profile usage action, place, member => by
    cases List.mem_singleton.mp member
    exact ⟨above, place⟩
  | .branch profile children, place, member =>
    lineage_of_mem_leavesOf children (fun _ child => ⟨_, place.child child⟩) member

theorem lineage_of_mem_leavesOf {tops : List (Command α)} {leaf : Command α} :
    (cs : List (Command α)) → (∀ c ∈ cs, ∃ above, Lineage tops above c) → leaf ∈ leavesOf cs →
      ∃ above, Lineage tops above leaf
  | c :: rest, places, member => by
    obtain ⟨⟨above, place⟩, others⟩ := List.forall_mem_cons.mp places
    rcases List.mem_append.mp member with own | later
    · exact lineage_of_mem_leaves c place own
    · exact lineage_of_mem_leavesOf rest others later

end

end Command

namespace Name

theorem words_normalisePath (path : String) : Text.words (normalisePath path) = (Text.words path).map Text.lower :=
  Text.words_intercalate fun _ member => by
    obtain ⟨word, within, rfl⟩ := List.mem_map.mp member
    exact isWord_lower (Text.isWord_of_mem_words within)

end Name

namespace Registry

variable {r after : Registry α}

/-- A path leads to where its normal form leads. -/
theorem resolve?_normalisePath (path : String) : r.resolve? (Name.normalisePath path) = r.resolve? path := by
  refine follow?_congr ?_
  rw [Name.words_normalisePath, List.map_map]
  exact List.map_congr_left fun word _ => Text.lower_lower word

theorem addGroups_eq {gs : List Group} (run : r.addGroups gs = (after, none)) :
    after = { r with groups := r.groups ++ gs } := by
  induction gs generalizing r with
  | nil =>
    cases run
    rw [List.append_nil]
  | cons g rest ih =>
    rw [addGroups] at run
    cases added : r.addGroup g with
    | error e =>
      rw [added] at run
      cases run
    | ok between =>
      rw [added] at run
      obtain ⟨_, rfl⟩ := addGroup_eq_ok.mp added
      rw [ih run, List.append_assoc]
      rfl

theorem foldlM_addDraft_eq_ok {ds : List (Draft α)} (run : ds.foldlM addDraft r = .ok after) :
    ∃ cs, List.Forall₂ (fun d c => d.build = .ok c) ds cs ∧ after = { r with commands := r.commands ++ cs } := by
  induction ds generalizing r with
  | nil =>
    cases run
    exact ⟨[], .nil, by rw [List.append_nil]⟩
  | cons d rest ih =>
    rw [List.foldlM_cons] at run
    obtain ⟨between, added, run⟩ := bind_eq_ok.mp run
    obtain ⟨c, built, added⟩ := bind_eq_ok.mp added
    obtain ⟨_, _, rfl⟩ := addCommand_eq_ok.mp added
    obtain ⟨cs, below, rfl⟩ := ih run
    exact ⟨c :: cs, .cons built below, by rw [List.append_assoc]; rfl⟩

/-- A catalog is added as a whole: behind what is there, its groups and its commands, in the order declared. -/
theorem addCatalog_eq_ok [TemplateEngine] {catalog : Catalog} {b : Bindings α} (run : r.addCatalog catalog b = .ok after) :
    ∃ gs drafts cs, catalog.toGroups = .ok gs ∧ catalog.toDrafts b = .ok drafts ∧
      List.Forall₂ (fun d c => d.build = .ok c) drafts cs ∧ after = ⟨r.commands ++ cs, r.groups ++ gs⟩ := by
  obtain ⟨gs, grouped, run⟩ := bind_eq_ok.mp run
  cases staging : r.addGroups gs with
  | mk staged fault? =>
    rw [staging] at run
    cases fault? with
    | some e => cases run
    | none =>
      obtain ⟨_, same, run⟩ := bind_eq_ok.mp run
      cases same
      obtain ⟨drafts, drafted, run⟩ := bind_eq_ok.mp run
      obtain ⟨cs, built, rfl⟩ := foldlM_addDraft_eq_ok run
      obtain rfl := addGroups_eq staging
      exact ⟨gs, drafts, cs, grouped, drafted, built, rfl⟩

end Registry

namespace Catalog

/-- The paths of all leaves declared, from left to right. -/
def leafPaths (catalog : Catalog) : List String := CommandDeclaration.leafPathsOf none catalog.commands

section

variable [TemplateEngine]

/-- The names, the rate limits and the validators of all commands are as they should be. -/
def WellFormed (catalog : Catalog) : Prop := ∀ d ∈ catalog.commands, d.WellFormed

theorem toDrafts_eq_ok {catalog : Catalog} {b : Bindings α} {drafts : List (Draft α)} :
    catalog.toDrafts b = .ok drafts ↔ CommandDeclaration.toDrafts none b catalog.commands = .ok (drafts, []) := by
  rw [toDrafts]
  constructor
  · intro run
    obtain ⟨⟨drafts', left⟩, drafted, run⟩ := bind_eq_ok.mp run
    cases least : left.least? with
    | some path =>
      simp only [least] at run
      cases run
    | none =>
      simp only [least] at run
      cases run
      rw [drafted, Bindings.least?_eq_none_iff.mp least]
  · intro drafted
    exact bind_eq_ok.mpr ⟨_, drafted, rfl⟩

/-- Each command of a catalog is built from the declaration at its position. -/
theorem drafted_of_toDrafts {ds : List CommandDeclaration} {b left : Bindings α} {drafts : List (Draft α)}
    {cs : List (Command α)} (drafted : CommandDeclaration.toDrafts none b ds = .ok (drafts, left))
    (built : List.Forall₂ (fun d c => d.build = .ok c) drafts cs) :
    List.Forall₂ (fun d c => ∃ b draft left, CommandDeclaration.toDraft none b d = .ok (draft, left) ∧
      draft.build = .ok c) ds cs := by
  induction ds generalizing b drafts cs with
  | nil =>
    cases drafted
    cases built
    exact .nil
  | cons d rest ih =>
    obtain ⟨draft, between, later, first, others, rfl⟩ := CommandDeclaration.toDrafts_cons_eq_ok.mp drafted
    obtain ⟨c, cs, own, below, rfl⟩ := List.forall₂_cons_left_iff.mp built
    exact .cons ⟨b, draft, between, first, own⟩ (ih others below)

/-- What a catalog brings into a registry: groups and commands as declared, and leaves that are the paths
bound, each with the action that was bound to it last. -/
structure Brings (catalog : Catalog) (pairs : List (String × α)) (gs : List Group) (cs : List (Command α))
    (after : Registry α) : Prop where
  groups : List.Forall₂ (fun d g => d.toGroup = .ok g) catalog.groups gs
  commands : List.Forall₂ (fun d c => ∃ b draft left, CommandDeclaration.toDraft none b d = .ok (draft, left) ∧
    draft.build = .ok c) catalog.commands cs
  distinct : ((Command.leavesOf cs).map Command.fullName).Nodup
  bound : ∀ path, path ∈ (Command.leavesOf cs).map Command.fullName ↔ path ∈ Bindings.boundPaths pairs
  resolves : ∀ path, Name.normalisePath path ∈ Bindings.boundPaths pairs → ∃ profile usage action,
    Bindings.LastBound pairs path action ∧ .leaf profile usage action ∈ Command.leavesOf cs ∧
      after.resolve? path = some (.leaf profile usage action)

theorem brings_of_addCatalog {catalog : Catalog} {pairs : List (String × α)} {r after : Registry α}
    (sound : r.Sound) (run : r.addCatalog catalog (Bindings.ofPairs pairs) = .ok after) :
    ∃ gs cs, after = ⟨r.commands ++ cs, r.groups ++ gs⟩ ∧ catalog.Brings pairs gs cs after := by
  have grows : Registry.Grows (fun _ => True) r after := Registry.grows_addCatalog (fun _ _ => trivial) run
  have sound' := grows.sound sound
  obtain ⟨gs, drafts, cs, grouped, drafted, built, same⟩ := Registry.addCatalog_eq_ok run
  rw [toDrafts_eq_ok] at drafted
  have takes := CommandDeclaration.takes_of_buildAll catalog.commands drafted built
  have leaves_bound (path : String) :
      path ∈ (Command.leavesOf cs).map Command.fullName ↔ path ∈ Bindings.boundPaths pairs := by
    rw [takes.named, ← Bindings.mem_paths_ofPairs]
    constructor
    · exact fun member => (Bindings.consume_isOk_iff.mp ⟨[], takes.consumed⟩).2 path member
    · intro bound
      by_contra spared
      cases (Bindings.mem_paths_of_consume takes.consumed).mpr ⟨spared, bound⟩
  refine ⟨gs, cs, same, forall₂_of_mapM grouped, drafted_of_toDrafts drafted built, ?_, leaves_bound, ?_⟩
  · rw [takes.named]
    exact (Bindings.consume_isOk_iff.mp ⟨[], takes.consumed⟩).1
  · intro path bound
    obtain ⟨c, member, named⟩ := List.mem_map.mp ((leaves_bound _).mpr bound)
    obtain ⟨profile, usage, action, rfl, found⟩ := takes.bound c member
    change profile.fullName = _ at named
    rw [named, Bindings.lookup_ofPairs] at found
    refine ⟨profile, usage, action, found, member, ?_⟩
    have tops : ∀ c ∈ cs, ∃ above, after.Lineage above c := by
      rw [same]
      exact fun c top => ⟨[], .top (List.mem_append_right _ top)⟩
    obtain ⟨above, place⟩ := Command.lineage_of_mem_leavesOf cs tops member
    have resolved := sound'.resolve?_fullName place
    change after.resolve? profile.fullName = _ at resolved
    rwa [named, Registry.resolve?_normalisePath] at resolved

/-- What becomes of the commands of a catalog, told from the paths of its leaves and the paths bound. -/
structure Judged (catalog : Catalog) (pairs : List (String × α)) : Prop where
  accepted : (∃ drafts, catalog.toDrafts (Bindings.ofPairs pairs) = .ok drafts) ↔
    catalog.leafPaths.Nodup ∧ ∀ path, path ∈ catalog.leafPaths ↔ path ∈ Bindings.boundPaths pairs
  refused : ∀ e, catalog.toDrafts (Bindings.ofPairs pairs) = .error e ↔
    (∃ path, e = .unboundAction path ∧
      Bindings.FirstUnbound catalog.leafPaths (Bindings.boundPaths pairs) path) ∨
    ∃ path, e = .unusedAction path ∧
      (¬ ∃ first, Bindings.FirstUnbound catalog.leafPaths (Bindings.boundPaths pairs) first) ∧
      Bindings.LeastUnused catalog.leafPaths (Bindings.boundPaths pairs) path

theorem map_toDrafts {catalog : Catalog} (formed : catalog.WellFormed) (b : Bindings α) :
    (catalog.toDrafts b).map (fun _ => ()) = b.exhaust catalog.leafPaths := by
  rw [toDrafts, Bindings.exhaust, leafPaths, ← CommandDeclaration.map_toDrafts none b catalog.commands formed]
  cases CommandDeclaration.toDrafts none b catalog.commands with
  | error e => rfl
  | ok both =>
    obtain ⟨drafts, left⟩ := both
    simp only [bind, Except.bind, Except.map]
    cases left.least? <;> rfl

theorem WellFormed.judged {catalog : Catalog} (formed : catalog.WellFormed) (pairs : List (String × α)) :
    catalog.Judged pairs := by
  have outcome := map_toDrafts formed (Bindings.ofPairs pairs)
  constructor
  · simp only [← Bindings.mem_paths_ofPairs]
    rw [← Bindings.exhaust_eq_ok_iff, ← outcome]
    cases catalog.toDrafts (Bindings.ofPairs pairs) with
    | ok drafts => exact ⟨fun _ => rfl, fun _ => ⟨drafts, rfl⟩⟩
    | error e => exact ⟨nofun, nofun⟩
  · intro e
    simp only [Bindings.FirstUnbound, Bindings.LeastUnused, ← Bindings.mem_paths_ofPairs]
    refine Iff.trans ?_ Bindings.exhaust_eq_error_iff
    rw [← outcome]
    cases catalog.toDrafts (Bindings.ofPairs pairs) with
    | ok drafts => exact ⟨nofun, nofun⟩
    | error e' =>
      constructor
      · intro reported
        cases reported
        rfl
      · intro reported
        cases reported
        rfl

end

namespace Sample

/-- Every text is a template that stands for itself. -/
abbrev verbatim : TemplateEngine := ⟨fun _ => true, fun source _ => some source⟩

/-- A catalog with leaves at every depth. -/
def declared : Catalog where
  groups := [{ name := " Tools", description := "Developer tools" }]
  commands := [
    { name := "Git", description := "Version control", aliases := ["vcs"], group? := some "tools"
      subcommands := [
        { name := "status", description := "Show the state" },
        { name := "Remote", description := "Other copies"
          subcommands := [
            { name := "add", description := "Add a copy", arguments := [{ name := "url" }] }] }] },
    { name := "roll", description := "Roll a die", rateLimit? := some { windowSeconds := 10, maxHits := 1 } }]

def pairs : List (String × Nat) := [("git status", 1), ("roll", 2), (" GIT  remote ADD", 3), ("Git Status", 4)]

theorem declared_wellFormed [TemplateEngine] : declared.WellFormed := by
  have git : Name.normalise "Git" = .ok "git" := by decide +kernel
  have status : Name.normalise "status" = .ok "status" := by decide +kernel
  have remote : Name.normalise "Remote" = .ok "remote" := by decide +kernel
  have add : Name.normalise "add" = .ok "add" := by decide +kernel
  have roll : Name.normalise "roll" = .ok "roll" := by decide +kernel
  have url : ∀ a ∈ [({ name := "url" } : ArgumentDeclaration)],
      ∃ argument, a.toArgument = .ok argument := List.forall_mem_singleton.mpr ⟨_, rfl⟩
  refine List.forall_mem_cons.mpr ⟨.intro git nofun nofun ?_, List.forall_mem_singleton.mpr ?_⟩
  · refine List.forall_mem_cons.mpr ⟨.intro status nofun nofun nofun, List.forall_mem_singleton.mpr ?_⟩
    exact .intro remote nofun nofun (List.forall_mem_singleton.mpr (.intro add nofun url nofun))
  · refine .intro roll ?_ nofun nofun
    rintro limit ⟨⟩
    exact ⟨_, rfl⟩

end Sample

end Catalog

namespace Registry

/-- A catalog that a registry takes leaves all before it as it was. The leaves that it brings are the paths
bound, each with the action bound to it last. Whether its commands can be made, and what is reported if they
cannot, is told from the paths of the leaves and the paths bound alone, if the catalog is well-formed. -/
theorem Reachable.catalog_reaches_leaves [TemplateEngine] {r : Registry α} {admitted : Group → Prop}
    (reach : r.Reachable admitted)
    (catalog : Catalog) (pairs : List (String × α)) :
    (∀ after, r.addCatalog catalog (Bindings.ofPairs pairs) = .ok after →
      ∃ gs cs, after = ⟨r.commands ++ cs, r.groups ++ gs⟩ ∧ catalog.Brings pairs gs cs after) ∧
    (catalog.WellFormed → catalog.Judged pairs) :=
  ⟨fun _ run => Catalog.brings_of_addCatalog reach.sound run, fun formed => formed.judged pairs⟩

/-- A path bound twice, in two spellings, and a catalog of which only one leaf is bound. -/
theorem Reachable.catalog_reaches_leaves_nested :
    let _ := Catalog.Sample.verbatim
    (∃ after profile usage,
      Registry.new.addCatalog Catalog.Sample.declared (Bindings.ofPairs Catalog.Sample.pairs) = .ok after ∧
        after.resolve? "git  STATUS" = some (.leaf profile usage 4)) ∧
    Catalog.Sample.declared.toDrafts (Bindings.ofPairs [("git status", 1)]) =
      .error (.unboundAction "git remote add") := by
  intro engine
  have reach : (Registry.new : Registry Nat).Reachable Group.Made := .new
  have spec := reach.catalog_reaches_leaves Catalog.Sample.declared
  constructor
  · have taken : ((Registry.new : Registry Nat).addCatalog Catalog.Sample.declared
        (Bindings.ofPairs Catalog.Sample.pairs)).isOk = true := by decide +kernel
    cases run : (Registry.new : Registry Nat).addCatalog Catalog.Sample.declared
        (Bindings.ofPairs Catalog.Sample.pairs) with
    | error e =>
      rw [run] at taken
      cases taken
    | ok after =>
      obtain ⟨gs, cs, _, brings⟩ := (spec Catalog.Sample.pairs).1 after run
      obtain ⟨profile, usage, action, last, _, resolved⟩ := brings.resolves "git  STATUS" (by decide +kernel)
      have bound : (Bindings.ofPairs Catalog.Sample.pairs).lookup (Name.normalisePath "git  STATUS") = some 4 := by
        decide +kernel
      rw [Bindings.lookup_ofPairs.mpr last] at bound
      cases bound
      exact ⟨after, profile, usage, rfl, resolved⟩
  · refine (((spec [("git status", 1)]).2 Catalog.Sample.declared_wellFormed).refused _).mpr (.inl ?_)
    refine ⟨_, rfl, ["git status"], ["roll"], by decide +kernel, by decide +kernel, by decide +kernel, .inr ?_⟩
    decide +kernel

end Registry

end ChatCommands
