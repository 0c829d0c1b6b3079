import ChatCommands.Proofs.Catalog.Bindings
import ChatCommands.Proofs.Command.Lineage

namespace ChatCommands

variable {α : Type}

namespace Command

mutual

/-- The leaves of a command tree, from left to right. -/
def leaves : Command α → List (Command α)
  | .leaf profile usage action => [.leaf profile usage action]
  | .branch _ children => leavesOf children

def leavesOf : List (Command α) → List (Command α)
  | [] => []
  | c :: rest => leaves c ++ leavesOf rest

end

end Command

namespace CommandDeclaration

/-- The path declared below `parent?`. -/
def path (parent? : Option String) (d : CommandDeclaration) : String :=
  Name.under parent? (Text.lower (Text.trim d.name))

mutual

/-- The paths of the leaves declared below `parent?`, from left to right. -/
def leafPaths (parent? : Option String) : CommandDeclaration → List String
  | ⟨name, _, _, _, _, _, _, subcommands, _, _, _, _⟩ =>
    let path := Name.under parent? (Text.lower (Text.trim name))
    match subcommands with
    | [] => [path]
    | _ :: _ => leafPathsOf (some path) subcommands

def leafPathsOf (parent? : Option String) : List CommandDeclaration → List String
  | [] => []
  | d :: rest => leafPaths parent? d ++ leafPathsOf parent? rest

end

variable {parent? : Option String} {b left : Bindings α} {d : CommandDeclaration}

theorem leafPaths_leaf (leaf : d.subcommands = []) (parent? : Option String) :
    d.leafPaths parent? = [d.path parent?] := by
  obtain ⟨_, _, _, _, _, _, _, subcommands, _, _, _, _⟩ := d
  cases leaf
  rfl

theorem leafPaths_branch (branch : d.subcommands ≠ []) (parent? : Option String) :
    d.leafPaths parent? = leafPathsOf (some (d.path parent?)) d.subcommands := by
  obtain ⟨_, _, _, _, _, _, _, subcommands, _, _, _, _⟩ := d
  cases subcommands with
  | nil => exact absurd rfl branch
  | cons => rfl

section

variable [TemplateEngine]

/-- Declarations in which the names, the rate limits and the validators are as they should be, at every depth. -/
inductive WellFormed : CommandDeclaration → Prop
  | intro {d : CommandDeclaration} {name} : Name.normalise d.name = .ok name →
      (∀ declared, d.rateLimit? = some declared → ∃ limit, declared.toRateLimit = .ok limit) →
      (∀ declared ∈ d.arguments, ∃ argument, declared.toArgument = .ok argument) →
      (∀ s ∈ d.subcommands, WellFormed s) → WellFormed d

/-- What is declared of a command itself, without those below it and without an action. -/
def outline (d : CommandDeclaration) : Except DefinitionError (Draft α) := do
  let name ← Name.normalise d.name
  let limit? ← d.rateLimit?.mapM (·.toRateLimit)
  let slots ← d.arguments.mapM (·.toArgument)
  return {
    name
    aliases := d.aliases
    group? := d.group?
    ownerOnly := d.ownerOnly
    dmAllowed := d.dmAllowed
    hidden := d.hidden
    documentation := ⟨d.description, d.details?, d.examples⟩
    rateLimit? := limit?
    arguments := slots }

theorem outline_eq_ok {outline : Draft α} (run : d.outline = .ok outline) :
    Name.normalise d.name = .ok outline.name ∧ outline.subcommands = [] ∧ outline.action? = none := by
  obtain ⟨name, named, run⟩ := bind_eq_ok.mp run
  obtain ⟨limit?, limited, run⟩ := bind_eq_ok.mp run
  obtain ⟨slots, filled, made⟩ := bind_eq_ok.mp run
  cases made
  exact ⟨named, rfl, rfl⟩

theorem path_of_outline {outline : Draft α} (run : d.outline = .ok outline) (parent? : Option String) :
    Name.under parent? outline.name = d.path parent? := by
  obtain ⟨_, named⟩ := Name.normalise_eq_ok.mp (outline_eq_ok run).1
  rw [path, named]

theorem toDraft_eq_ok {draft : Draft α} (run : toDraft parent? b d = .ok (draft, left)) :
    ∃ outline : Draft α, d.outline = .ok outline := by
  obtain ⟨_, _, _, _, _, _, _, subcommands, _, _, _, _⟩ := d
  rw [toDraft] at run
  obtain ⟨name, named, run⟩ := bind_eq_ok.mp run
  obtain ⟨limit?, limited, run⟩ := bind_eq_ok.mp run
  obtain ⟨slots, filled, run⟩ := bind_eq_ok.mp run
  exact ⟨_, bind_eq_ok.mpr ⟨_, named, bind_eq_ok.mpr ⟨_, limited, bind_eq_ok.mpr ⟨_, filled, rfl⟩⟩⟩⟩

/-- A leaf is the outline of its declaration with the action of its path, which is taken from the bindings. -/
theorem toDraft_leaf {outline : Draft α} (outlined : d.outline = .ok outline) (leaf : d.subcommands = [])
    (parent? : Option String) (b : Bindings α) :
    toDraft parent? b d =
      match b.lookup (d.path parent?) with
      | none => .error (.unboundAction (d.path parent?))
      | some action => .ok ({ outline with action? := some action }, b.erase (d.path parent?)) := by
  rw [← path_of_outline outlined parent?]
  obtain ⟨_, _, _, _, _, _, _, subcommands, _, _, _, _⟩ := d
  obtain ⟨name, named, outlined⟩ := bind_eq_ok.mp outlined
  obtain ⟨limit?, limited, outlined⟩ := bind_eq_ok.mp outlined
  obtain ⟨slots, filled, made⟩ := bind_eq_ok.mp outlined
  cases made
  cases leaf
  rw [toDraft, named, limited, filled]
  rfl

/-- A branch is the outline of its declaration with the drafts of the declarations in it. -/
theorem toDraft_branch {outline : Draft α} (outlined : d.outline = .ok outline) (branch : d.subcommands ≠ [])
    (parent? : Option String) (b : Bindings α) :
    toDraft parent? b d = (toDrafts (some (d.path parent?)) b d.subcommands).map
      fun (drafts, left) => ({ outline with subcommands := drafts }, left) := by
  rw [← path_of_outline outlined parent?]
  obtain ⟨_, _, _, _, _, _, _, subcommands, _, _, _, _⟩ := d
  obtain ⟨name, named, outlined⟩ := bind_eq_ok.mp outlined
  obtain ⟨limit?, limited, outlined⟩ := bind_eq_ok.mp outlined
  obtain ⟨slots, filled, made⟩ := bind_eq_ok.mp outlined
  cases made
  cases subcommands with
  | nil => exact absurd rfl branch
  | cons first rest =>
    rw [toDraft, named, limited, filled]
    rfl

theorem WellFormed.exists_outline (formed : d.WellFormed) : ∃ outline : Draft α, d.outline = .ok outline := by
  cases formed with
  | @intro _ name named limited filled _ =>
    obtain ⟨slots, filled⟩ := exists_mapM filled
    have limits : ∃ limit?, d.rateLimit?.mapM (·.toRateLimit) = .ok limit? := by
      cases declared : d.rateLimit? with
      | none => exact ⟨none, rfl⟩
      | some declared' =>
        obtain ⟨limit, made⟩ := limited declared' declared
        exact ⟨some limit, by rw [Option.mapM_some, made]; rfl⟩
    obtain ⟨limit?, limited⟩ := limits
    exact ⟨_, by rw [outline, named, limited, filled]; rfl⟩

theorem WellFormed.children (formed : d.WellFormed) : ∀ s ∈ d.subcommands, s.WellFormed := by
  cases formed with
  | intro _ _ _ below => exact below

/-- Drafting two declarations takes from the bindings what the first needs, and then what the others need. -/
theorem toDrafts_cons_eq_ok {rest : List CommandDeclaration} {drafts : List (Draft α)} :
    toDrafts parent? b (d :: rest) = .ok (drafts, left) ↔
      ∃ draft between later, toDraft parent? b d = .ok (draft, between) ∧
        toDrafts parent? between rest = .ok (later, left) ∧ drafts = draft :: later := by
  rw [toDrafts]
  constructor
  · intro run
    obtain ⟨⟨draft, between⟩, first, run⟩ := bind_eq_ok.mp run
    obtain ⟨⟨later, _⟩, others, made⟩ := bind_eq_ok.mp run
    cases made
    exact ⟨draft, between, later, first, others, rfl⟩
  · rintro ⟨draft, between, later, first, others, rfl⟩
    exact bind_eq_ok.mpr ⟨_, first, bind_eq_ok.mpr ⟨_, others, rfl⟩⟩

mutual

/-- Where a declaration is well-formed, only its leaves and the bindings decide what becomes of it. -/
theorem map_toDraft (parent? : Option String) (b : Bindings α) :
    (d : CommandDeclaration) → d.WellFormed → (toDraft parent? b d).map Prod.snd = b.consume (d.leafPaths parent?)
  | ⟨name, description, aliases, group?, details?, examples, arguments, subcommands, ownerOnly, dmAllowed,
      hidden, rateLimit?⟩, formed => by
    obtain ⟨outline, outlined⟩ := formed.exists_outline (α := α)
    by_cases leaf : subcommands = []
    · rw [toDraft_leaf outlined leaf, leafPaths_leaf leaf, Bindings.consume]
      cases b.lookup _ <;> rfl
    · have below (at? : Option String) := map_toDrafts at? b subcommands formed.children
      rw [toDraft_branch outlined leaf, leafPaths_branch leaf, ← below]
      cases toDrafts _ b subcommands <;> rfl

theorem map_toDrafts (parent? : Option String) (b : Bindings α) :
    (ds : List CommandDeclaration) → (∀ d ∈ ds, d.WellFormed) →
      (toDrafts parent? b ds).map Prod.snd = b.consume (leafPathsOf parent? ds)
  | [], _ => rfl
  | d :: rest, formed => by
    obtain ⟨first, others⟩ := List.forall_mem_cons.mp formed
    rw [toDrafts, leafPathsOf, Bindings.consume_append, ← map_toDraft parent? b d first]
    cases drafted : toDraft parent? b d with
    | error e => rfl
    | ok both =>
      obtain ⟨draft, between⟩ := both
      refine Eq.trans ?_ (map_toDrafts parent? between rest others)
      change ((toDrafts parent? between rest).bind fun later => .ok (draft :: later.1, later.2)).map Prod.snd = _
      cases toDrafts parent? between rest <;> rfl

end

end

/-- The leaves have these paths. They take the actions of the paths out of the bindings, each at its turn. -/
structure Takes (b : Bindings α) (paths : List String) (left : Bindings α) (leaves : List (Command α)) :
    Prop where
  named : leaves.map Command.fullName = paths
  consumed : b.consume paths = .ok left
  bound : ∀ c ∈ leaves, ∃ profile usage action, c = .leaf profile usage action ∧
    b.lookup profile.fullName = some action

theorem Takes.append {between : Bindings α} {first later : List String} {leaves others : List (Command α)}
    (takes : Takes b first between leaves) (takes' : Takes between later left others) :
    Takes b (first ++ later) left (leaves ++ others) := by
  refine ⟨?_, ?_, List.forall_mem_append.mpr ⟨takes.bound, fun c member => ?_⟩⟩
  · rw [List.map_append, takes.named, takes'.named]
  · rw [Bindings.consume_append, takes.consumed]
    exact takes'.consumed
  · obtain ⟨profile, usage, action, same, found⟩ := takes'.bound c member
    rw [Bindings.lookup_of_consume takes.consumed] at found
    split at found
    · cases found
    · exact ⟨profile, usage, action, same, found⟩

section

variable [TemplateEngine]

/-- The second normalisation of a name changes nothing, so what is built has the path declared. -/
theorem fullName_of_buildProfile {outline draft : Draft α} {inherited : String} {profile : Profile}
    (outlined : d.outline = .ok outline) (same : draft.name = outline.name)
    (profiled : draft.buildProfile parent? inherited = .ok profile) : profile.fullName = d.path parent? := by
  obtain ⟨named, placed⟩ := Draft.placed_of_buildProfile profiled
  have normal := Name.isNormal_of_normalise (outline_eq_ok outlined).1
  rw [same, Name.normalise_of_isNormal normal] at named
  rw [Profile.fullName, placed, ← Except.ok.inj named, path_of_outline outlined]

mutual

/-- The leaves built have the paths of the leaves declared, and take the actions that are bound to these. -/
theorem takes_of_build {parent? : Option String} {inherited : String} {b left : Bindings α} {draft : Draft α}
    {c : Command α} :
    (d : CommandDeclaration) → toDraft parent? b d = .ok (draft, left) →
      draft.buildUnder parent? inherited = .ok c → Takes b (d.leafPaths parent?) left c.leaves
  | ⟨name, description, aliases, group?, details?, examples, arguments, subcommands, ownerOnly, dmAllowed,
      hidden, rateLimit?⟩, drafted, built => by
    obtain ⟨outline, outlined⟩ := toDraft_eq_ok drafted
    obtain ⟨_, bare, idle⟩ := outline_eq_ok outlined
    obtain ⟨profile, profiled, shape⟩ := Draft.buildUnder_eq_ok.mp built
    by_cases leaf : subcommands = []
    · rw [toDraft_leaf outlined leaf] at drafted
      rw [leafPaths_leaf leaf]
      split at drafted
      · cases drafted
      · rename_i action found
        cases drafted
        rcases shape with ⟨usage, action', _, acts, _, rfl⟩ | ⟨_, branch, _⟩
        · cases acts
          have path := fullName_of_buildProfile outlined rfl profiled
          refine ⟨congrArg (fun p => [p]) path, ?_, List.forall_mem_singleton.mpr ⟨profile, usage, action, rfl, ?_⟩⟩
          · rw [Bindings.consume, found, Bindings.consume]
          · rw [path, found]
        · exact absurd bare branch
    · rw [toDraft_branch outlined leaf] at drafted
      rw [leafPaths_branch leaf]
      cases inner : toDrafts (some (CommandDeclaration.path parent? _)) b subcommands with
      | error e =>
        rw [inner] at drafted
        cases drafted
      | ok both =>
        rw [inner] at drafted
        cases drafted
        rcases shape with ⟨_, _, _, acts, _⟩ | ⟨children, _, _, _, below, _, rfl⟩
        · cases idle.symm.trans acts
        · rw [fullName_of_buildProfile outlined rfl profiled] at below
          exact takes_of_buildAll subcommands inner (Draft.buildAll_eq_ok.mp below)

theorem takes_of_buildAll {parent? : Option String} {inherited : String} {b left : Bindings α}
    {drafts : List (Draft α)} {cs : List (Command α)} :
    (ds : List CommandDeclaration) → toDrafts parent? b ds = .ok (drafts, left) →
      List.Forall₂ (fun d c => d.buildUnder parent? inherited = .ok c) drafts cs →
      Takes b (leafPathsOf parent? ds) left (Command.leavesOf cs)
  | [], drafted, built => by
    cases drafted
    cases built
    exact ⟨rfl, rfl, List.forall_mem_nil _⟩
  | d :: rest, drafted, built => by
    obtain ⟨draft, between, later, first, others, rfl⟩ := toDrafts_cons_eq_ok.mp drafted
    obtain ⟨c, cs, own, below, rfl⟩ := List.forall₂_cons_left_iff.mp built
    exact (takes_of_build d first own).append (takes_of_buildAll rest others below)

end

end

end CommandDeclaration

end ChatCommands
