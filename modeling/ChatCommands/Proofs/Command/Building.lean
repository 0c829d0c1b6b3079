import ChatCommands.Proofs.Command.Siblings
import ChatCommands.Proofs.Name
import ChatCommands.Proofs.Usage

namespace ChatCommands

namespace Name

/-- Something is left of the name when it is trimmed, with no blank inside. -/
def Usable (raw : String) : Prop := Text.IsWord (Text.trim raw)

/-- The form that a usable name is kept in. -/
def form (raw : String) : String := Text.lower (Text.trim raw)

theorem normalise_eq_ok_iff_form {raw name : String} : normalise raw = .ok name ↔ Usable raw ∧ name = form raw := by
  rw [normalise_eq_ok, eq_comm (a := name)]
  rfl

end Name

namespace Draft

variable {α : Type} {d : Draft α} {c : Command α}

mutual

/-- What holds of a draft whenever it holds of the subcommands holds of every draft. -/
theorem of_subcommands {motive : Draft α → Prop} (step : ∀ d, (∀ s ∈ d.subcommands, motive s) → motive d) :
    (d : Draft α) → motive d
  | ⟨_, _, _, _, _, _, _, _, _, subcommands, _⟩ => step _ (forall_of_subcommands step subcommands)

theorem forall_of_subcommands {motive : Draft α → Prop}
    (step : ∀ d, (∀ s ∈ d.subcommands, motive s) → motive d) : (ds : List (Draft α)) → ∀ d ∈ ds, motive d
  | [] => List.forall_mem_nil _
  | d :: rest => List.forall_mem_cons.mpr ⟨of_subcommands step d, forall_of_subcommands step rest⟩

end

/-- The names that a draft asks for, in the form that they are kept in. -/
def forms (d : Draft α) : List String := (d.name :: d.aliases).map Name.form

/-- The rules for the names of one draft. -/
structure Named (d : Draft α) : Prop where
  usable : ∀ raw ∈ d.name :: d.aliases, Name.Usable raw
  grouped : ∀ raw, d.group? = some raw → Name.Usable raw
  distinct : d.forms.Nodup

/-- The profile that a draft is given below `parent?`. -/
def profileUnder (d : Draft α) (parent? : Option String) (inherited : String) : Profile where
  name := Name.form d.name
  aliases := d.aliases.map Name.form
  group := (d.group?.map Name.form).getD inherited
  ownerOnly := d.ownerOnly
  dmAllowed := d.dmAllowed
  hidden := d.hidden
  documentation := d.documentation
  rateLimit? := d.rateLimit?
  parent? := parent?

theorem normaliseAliases_eq_ok {scope : String} {seen raws aliases : List String} :
    normaliseAliases scope seen raws = .ok aliases ↔
      (∀ raw ∈ raws, Name.Usable raw) ∧ (raws.map Name.form).Nodup ∧ (∀ raw ∈ raws, Name.form raw ∉ seen) ∧
        aliases = raws.map Name.form := by
  induction raws generalizing seen aliases with
  | nil => simp [normaliseAliases, eq_comm]
  | cons first rest ih =>
    rw [normaliseAliases]
    simp only [List.forall_mem_cons, List.map_cons, List.nodup_cons]
    constructor
    · intro run
      obtain ⟨normal, named, run⟩ := bind_eq_ok.mp run
      obtain ⟨usable, rfl⟩ := Name.normalise_eq_ok_iff_form.mp named
      by_cases taken : seen.contains (Name.form first) = true
      · simp only [taken, if_true] at run
        cases run
      · simp only [taken] at run
        obtain ⟨later, below, made⟩ := bind_eq_ok.mp run
        obtain ⟨others, distinct, fresh, rfl⟩ := ih.mp below
        cases made
        refine ⟨⟨usable, others⟩, ⟨fun again => ?_, distinct⟩, ⟨fun earlier => ?_, fun raw member => ?_⟩, rfl⟩
        · obtain ⟨raw, member, same⟩ := List.mem_map.mp again
          exact fresh raw member (List.mem_cons.mpr (.inl same))
        · exact taken (List.contains_iff_mem.mpr earlier)
        · exact fun earlier => fresh raw member (List.mem_cons_of_mem _ earlier)
    · rintro ⟨⟨usable, others⟩, ⟨once, distinct⟩, ⟨new, fresh⟩, rfl⟩
      have untaken : seen.contains (Name.form first) = false :=
        Bool.eq_false_iff.mpr fun earlier => new (List.contains_iff_mem.mp earlier)
      have apart : ∀ raw ∈ rest, Name.form raw ∉ Name.form first :: seen := by
        intro raw member earlier
        rcases List.mem_cons.mp earlier with same | earlier
        · exact once (List.mem_map.mpr ⟨raw, member, same⟩)
        · exact fresh raw member earlier
      refine bind_eq_ok.mpr ⟨_, Name.normalise_eq_ok_iff_form.mpr ⟨usable, rfl⟩, ?_⟩
      simp only [untaken, Bool.false_eq_true, if_false]
      exact bind_eq_ok.mpr ⟨_, ih.mpr ⟨others, distinct, apart, rfl⟩, rfl⟩

theorem topLevelFlag?_eq_none : d.topLevelFlag? = none ↔ d.ownerOnly = false ∧ d.dmAllowed = false := by
  unfold topLevelFlag?
  cases d.ownerOnly <;> cases d.dmAllowed <;> simp

theorem named_iff :
    d.Named ↔ Name.Usable d.name ∧ ((∀ raw ∈ d.aliases, Name.Usable raw) ∧ (d.aliases.map Name.form).Nodup ∧
      ∀ raw ∈ d.aliases, Name.form raw ∉ [Name.form d.name]) ∧ ∀ raw, d.group? = some raw → Name.Usable raw := by
  have apart : Name.form d.name ∉ d.aliases.map Name.form ↔
      ∀ raw ∈ d.aliases, Name.form raw ∉ [Name.form d.name] := by
    simp only [List.mem_map, not_exists, not_and, List.mem_singleton]
  constructor
  · rintro ⟨usables, grouped, forms⟩
    obtain ⟨usable, others⟩ := List.forall_mem_cons.mp usables
    obtain ⟨once, distinct⟩ := List.nodup_cons.mp forms
    exact ⟨usable, ⟨others, distinct, apart.mp once⟩, grouped⟩
  · rintro ⟨usable, ⟨others, distinct, fresh⟩, grouped⟩
    exact ⟨List.forall_mem_cons.mpr ⟨usable, others⟩, grouped, List.nodup_cons.mpr ⟨apart.mpr fresh, distinct⟩⟩

/-- A profile is built of every draft that keeps to the rules for names and flags, and of no other. -/
theorem buildProfile_eq_ok {parent? : Option String} {inherited : String} {p : Profile} :
    d.buildProfile parent? inherited = .ok p ↔
      d.Named ∧ (parent?.isSome = true → d.ownerOnly = false ∧ d.dmAllowed = false) ∧
        p = d.profileUnder parent? inherited := by
  rw [buildProfile, named_iff, profileUnder]
  simp only [bind_eq_ok, Name.normalise_eq_ok_iff_form, normaliseAliases_eq_ok, ← topLevelFlag?_eq_none]
  constructor
  · rintro ⟨name, ⟨usable, rfl⟩, aliases, ⟨others, distinct, fresh, rfl⟩, run⟩
    have unflagged : parent?.isSome = true → d.topLevelFlag? = none := by
      intro below
      obtain ⟨path, rfl⟩ := Option.isSome_iff_exists.mp below
      cases flag : d.topLevelFlag? with
      | none => rfl
      | some _ =>
        rw [flag] at run
        cases run
    split at run
    · cases run
    split at run
    · rename_i raw own
      simp only [bind_eq_ok, Name.normalise_eq_ok_iff_form] at run
      obtain ⟨group, ⟨grouped, rfl⟩, made⟩ := run
      rw [own, ← Except.ok.inj made]
      exact ⟨⟨usable, ⟨others, distinct, fresh⟩, fun _ same => Option.some.inj same ▸ grouped⟩, unflagged, rfl⟩
    · rename_i own
      rw [own, ← Except.ok.inj run]
      exact ⟨⟨usable, ⟨others, distinct, fresh⟩, nofun⟩, unflagged, rfl⟩
  · rintro ⟨⟨usable, ⟨others, distinct, fresh⟩, grouped⟩, unflagged, rfl⟩
    refine ⟨_, ⟨usable, rfl⟩, _, ⟨others, distinct, fresh, rfl⟩, ?_⟩
    split
    · rename_i path _ flag
      rw [unflagged rfl] at flag
      cases flag
    split
    · rename_i raw own
      simp only [bind_eq_ok, Name.normalise_eq_ok_iff_form]
      exact ⟨_, ⟨grouped raw own, rfl⟩, by rw [own]; rfl⟩
    · rename_i own
      rw [own]
      rfl

theorem buildUnder_eq_ok {parent? : Option String} {inherited : String} :
    d.buildUnder parent? inherited = .ok c ↔
      ∃ profile, d.buildProfile parent? inherited = .ok profile ∧
        ((∃ usage action, d.subcommands = [] ∧ d.action? = some action ∧
            Usage.ofArguments d.arguments = .ok usage ∧ c = .leaf profile usage action) ∨
          ∃ children, d.subcommands ≠ [] ∧ d.arguments = [] ∧ d.action? = none ∧
            buildAll profile.fullName profile.group d.subcommands = .ok children ∧ Command.Distinct children ∧
            c = .branch profile children) := by
  obtain ⟨name, aliases, group?, ownerOnly, dmAllowed, hidden, documentation, rateLimit?, arguments,
    subcommands, action?⟩ := d
  rw [buildUnder, bind_eq_ok]
  refine exists_congr fun profile => and_congr_right fun _ => ?_
  cases subcommands with
  | nil =>
    cases action? with
    | none =>
      constructor
      · exact nofun
      · rintro (⟨_, _, _, acts, _⟩ | ⟨_, many, _⟩)
        · cases acts
        · exact absurd rfl many
    | some action =>
      constructor
      · intro run
        obtain ⟨usage, slots, made⟩ := bind_eq_ok.mp run
        exact .inl ⟨usage, action, rfl, rfl, slots, (Except.ok.inj made).symm⟩
      · rintro (⟨usage, _, _, acts, slots, rfl⟩ | ⟨_, many, _⟩)
        · cases acts
          exact bind_eq_ok.mpr ⟨usage, slots, rfl⟩
        · exact absurd rfl many
  | cons first rest =>
    constructor
    · intro run
      simp only at run
      split at run
      · cases run
      rename_i unslotted
      split at run
      · cases run
      rename_i idle
      obtain ⟨children, built, run⟩ := bind_eq_ok.mp run
      obtain ⟨_, distinct, made⟩ := bind_eq_ok.mp run
      exact .inr ⟨children, List.cons_ne_nil first rest, by simpa using unslotted, by simpa using idle, built,
        Command.checkDistinct_eq_ok.mp distinct, (Except.ok.inj made).symm⟩
    · rintro (⟨_, _, none, _⟩ | ⟨children, _, rfl, rfl, built, distinct, rfl⟩)
      · cases none
      · exact bind_eq_ok.mpr ⟨children, built,
          bind_eq_ok.mpr ⟨(), Command.checkDistinct_eq_ok.mpr distinct, rfl⟩⟩

theorem buildAll_eq_ok {parent inherited : String} {ds : List (Draft α)} {cs : List (Command α)} :
    buildAll parent inherited ds = .ok cs ↔
      List.Forall₂ (fun d c => d.buildUnder (some parent) inherited = .ok c) ds cs := by
  induction ds generalizing cs with
  | nil =>
    rw [buildAll, List.forall₂_nil_left_iff]
    exact ⟨fun run => (Except.ok.inj run).symm, fun none => congrArg Except.ok none.symm⟩
  | cons d rest ih =>
    rw [buildAll, List.forall₂_cons_left_iff]
    constructor
    · intro run
      obtain ⟨c, built, run⟩ := bind_eq_ok.mp run
      obtain ⟨later, below, made⟩ := bind_eq_ok.mp run
      cases made
      exact ⟨c, later, built, ih.mp below, rfl⟩
    · rintro ⟨c, later, built, below, rfl⟩
      exact bind_eq_ok.mpr ⟨c, built, bind_eq_ok.mpr ⟨later, ih.mpr below, rfl⟩⟩

theorem names_of_buildUnder {parent? : Option String} {inherited : String}
    (run : d.buildUnder parent? inherited = .ok c) : c.names = d.forms := by
  obtain ⟨profile, profiled, shape⟩ := buildUnder_eq_ok.mp run
  obtain ⟨_, _, rfl⟩ := buildProfile_eq_ok.mp profiled
  rcases shape with ⟨_, _, _, _, _, rfl⟩ | ⟨_, _, _, _, _, _, rfl⟩ <;> rfl

theorem distinct_iff_of_buildAll {parent inherited : String} {ds : List (Draft α)} {cs : List (Command α)}
    (run : buildAll parent inherited ds = .ok cs) : Command.Distinct cs ↔ (ds.flatMap forms).Nodup := by
  have same : cs.flatMap Command.names = ds.flatMap forms := by
    have each := buildAll_eq_ok.mp run
    clear run
    induction each with
    | nil => rfl
    | cons built _ ih => rw [List.flatMap_cons, List.flatMap_cons, names_of_buildUnder built, ih]
  rw [Command.Distinct, same]

/-- A draft of a tree, with the drafts above it from the top down. -/
inductive Within : Draft α → List (Draft α) → Draft α → Prop
  | here {d : Draft α} : Within d [] d
  | under {d s e : Draft α} {above : List (Draft α)} : s ∈ d.subcommands → Within s above e → Within d (d :: above) e

/-- The rules for one draft, below those `above` it. -/
structure Proper (above : List (Draft α)) (d : Draft α) : Prop extends d.Named where
  leaf : d.subcommands = [] → d.action?.isSome = true ∧ ∃ usage, Usage.ofArguments d.arguments = .ok usage
  branch : d.subcommands ≠ [] → d.action? = none ∧ d.arguments = [] ∧ (d.subcommands.flatMap forms).Nodup
  unflagged : above ≠ [] → d.ownerOnly = false ∧ d.dmAllowed = false

/-- The names on the way down, with blanks between. -/
def pathOf (line : List (Draft α)) : String := " ".intercalate (line.map fun d => Name.form d.name)

/-- The path of the last of the drafts above a command, if there is one. -/
def parentOf? (above : List (Draft α)) : Option String := if above = [] then none else some (pathOf above)

/-- The group that is set last on the way down. -/
def groupOf (line : List (Draft α)) : String :=
  ((line.reverse.findSome? (·.group?)).map Name.form).getD Group.default.name

end Draft

/-- A profile that tells what its draft says, below the drafts `above`. -/
structure Profile.Mirrors {α : Type} (above : List (Draft α)) (d : Draft α) (p : Profile) : Prop where
  name : p.name = Name.form d.name
  aliases : p.aliases = d.aliases.map Name.form
  path : p.fullName = Draft.pathOf (above ++ [d])
  parent : p.parent? = Draft.parentOf? above
  group : p.group = Draft.groupOf (above ++ [d])
  flags : p.ownerOnly = d.ownerOnly ∧ p.dmAllowed = d.dmAllowed ∧ p.hidden = d.hidden
  documentation : p.documentation = d.documentation
  rateLimit : p.rateLimit? = d.rateLimit?

/-- A command tree of the same shape as its drafts, that tells at each place what the draft there says. -/
inductive Command.Mirrors {α : Type} : List (Draft α) → Draft α → Command α → Prop
  | leaf {above d profile usage action} : profile.Mirrors above d → d.subcommands = [] →
      d.action? = some action → usage.arguments = d.arguments → Mirrors above d (.leaf profile usage action)
  | branch {above d profile children} : profile.Mirrors above d → d.subcommands ≠ [] →
      d.subcommands.length = children.length →
      (∀ pair ∈ d.subcommands.zip children, Mirrors (above ++ [d]) pair.1 pair.2) →
      Mirrors above d (.branch profile children)

namespace Draft

variable {α : Type} {d e : Draft α} {above line : List (Draft α)} {c : Command α}

theorem under_parentOf? (above : List (Draft α)) (d : Draft α) :
    Name.under (parentOf? above) (Name.form d.name) = pathOf (above ++ [d]) := by
  by_cases top : above = []
  · rw [top, parentOf?, if_pos rfl, Name.under, pathOf, List.nil_append, List.map_singleton,
      String.intercalate_singleton]
  · have names : above.map (fun d => Name.form d.name) ≠ [] := by simpa using top
    rw [parentOf?, if_neg top, Name.under_some, pathOf, pathOf, List.map_append,
      String.intercalate_append_of_ne_nil names (by simp), List.map_singleton, String.intercalate_singleton]

theorem parentOf?_concat (above : List (Draft α)) (d : Draft α) :
    parentOf? (above ++ [d]) = some (pathOf (above ++ [d])) := if_neg (by simp)

theorem groupOf_concat (above : List (Draft α)) (d : Draft α) :
    groupOf (above ++ [d]) = (d.group?.map Name.form).getD (groupOf above) := by
  rw [groupOf, List.reverse_append, List.reverse_singleton, List.singleton_append, List.findSome?_cons]
  cases d.group? <;> rfl

theorem mirrors_profileUnder (above : List (Draft α)) (d : Draft α) :
    (d.profileUnder (parentOf? above) (groupOf above)).Mirrors above d where
  name := rfl
  aliases := rfl
  path := under_parentOf? above d
  parent := rfl
  group := (groupOf_concat above d).symm
  flags := ⟨rfl, rfl, rfl⟩
  documentation := rfl
  rateLimit := rfl

/-- What one draft needs at its place, and what is handed down to its subcommands. -/
theorem buildUnder_at_eq_ok :
    d.buildUnder (parentOf? above) (groupOf above) = .ok c ↔
      d.Proper above ∧
        ((∃ usage action, d.subcommands = [] ∧ d.action? = some action ∧ usage.arguments = d.arguments ∧
            c = .leaf (d.profileUnder (parentOf? above) (groupOf above)) usage action) ∨
          ∃ children, d.subcommands ≠ [] ∧
            List.Forall₂ (fun s c => s.buildUnder (parentOf? (above ++ [d])) (groupOf (above ++ [d])) = .ok c)
              d.subcommands children ∧
            c = .branch (d.profileUnder (parentOf? above) (groupOf above)) children) := by
  have mirrors := mirrors_profileUnder above d
  have below : (parentOf? above).isSome = true ↔ above ≠ [] := by
    rw [parentOf?]
    split <;> simp [*]
  rw [buildUnder_eq_ok, parentOf?_concat, ← mirrors.path, ← mirrors.group]
  constructor
  · rintro ⟨profile, profiled, shape⟩
    obtain ⟨named, unflagged, rfl⟩ := buildProfile_eq_ok.mp profiled
    rw [below] at unflagged
    rcases shape with ⟨usage, action, alone, acts, slots, rfl⟩ | ⟨children, many, bare, idle, built, distinct, rfl⟩
    · have given := (Usage.ofArguments_eq_ok.mp slots).1
      refine ⟨⟨named, fun _ => ⟨by rw [acts]; rfl, usage, slots⟩, fun many => absurd alone many, unflagged⟩, ?_⟩
      exact .inl ⟨usage, action, alone, acts, by rw [given], rfl⟩
    · have apart := (distinct_iff_of_buildAll built).mp distinct
      refine ⟨⟨named, fun alone => absurd alone many, fun _ => ⟨idle, bare, apart⟩, unflagged⟩, ?_⟩
      exact .inr ⟨children, many, buildAll_eq_ok.mp built, rfl⟩
  · rintro ⟨proper, shape⟩
    have profiled : d.buildProfile (parentOf? above) (groupOf above) = .ok _ :=
      buildProfile_eq_ok.mpr ⟨proper.toNamed, fun under => proper.unflagged (below.mp under), rfl⟩
    refine ⟨_, profiled, ?_⟩
    rcases shape with ⟨⟨_⟩, action, alone, acts, rfl, rfl⟩ | ⟨children, many, built, rfl⟩
    · obtain ⟨_, usage, slots⟩ := proper.leaf alone
      obtain ⟨rfl, _⟩ := Usage.ofArguments_eq_ok.mp slots
      exact .inl ⟨_, action, alone, acts, slots, rfl⟩
    · obtain ⟨idle, bare, apart⟩ := proper.branch many
      have all := buildAll_eq_ok.mpr built
      exact .inr ⟨children, many, bare, idle, all, (distinct_iff_of_buildAll all).mpr apart, rfl⟩

theorem proper_of_buildUnder (run : d.buildUnder (parentOf? above) (groupOf above) = .ok c)
    (within : Within d line e) : e.Proper (above ++ line) := by
  induction within generalizing above c with
  | here => simpa using (buildUnder_at_eq_ok.mp run).1
  | @under d s e line member _ ih =>
    obtain ⟨_, ⟨_, _, alone, _⟩ | ⟨children, _, built, _⟩⟩ := buildUnder_at_eq_ok.mp run
    · rw [alone] at member
      cases member
    · obtain ⟨c, _, own⟩ := exists_of_forall₂ built.flip member
      simpa using ih own

theorem exists_buildUnder (proper : ∀ line e, Within d line e → e.Proper (above ++ line)) :
    ∃ c, d.buildUnder (parentOf? above) (groupOf above) = .ok c := by
  induction d using of_subcommands generalizing above with
  | step d ih =>
    have own : d.Proper above := by simpa using proper [] d .here
    by_cases alone : d.subcommands = []
    · obtain ⟨acts, _⟩ := own.leaf alone
      obtain ⟨action, acts⟩ := Option.isSome_iff_exists.mp acts
      exact ⟨_, buildUnder_at_eq_ok.mpr ⟨own, .inl ⟨⟨d.arguments⟩, action, alone, acts, rfl, rfl⟩⟩⟩
    · have each : ∀ s ∈ d.subcommands,
          ∃ c, s.buildUnder (parentOf? (above ++ [d])) (groupOf (above ++ [d])) = .ok c := by
        intro s member
        refine ih s member fun line e within => ?_
        simpa using proper (d :: line) e (.under member within)
      obtain ⟨children, built⟩ := exists_forall₂ each
      exact ⟨_, buildUnder_at_eq_ok.mpr ⟨own, .inr ⟨children, alone, built, rfl⟩⟩⟩

theorem mirrors_of_buildUnder (run : d.buildUnder (parentOf? above) (groupOf above) = .ok c) :
    c.Mirrors above d := by
  induction d using of_subcommands generalizing above c with
  | step d ih =>
    have mirrors := mirrors_profileUnder above d
    obtain ⟨_, ⟨usage, action, alone, acts, given, rfl⟩ | ⟨children, many, built, rfl⟩⟩ :=
      buildUnder_at_eq_ok.mp run
    · exact .leaf mirrors alone acts given
    · obtain ⟨length, each⟩ := List.forall₂_iff_zip.mp built
      exact .branch mirrors many length fun pair member => ih _ (List.of_mem_zip member).1 (each member)

theorem build_eq (d : Draft α) :
    d.build = d.buildUnder (parentOf? ([] : List (Draft α))) (groupOf ([] : List (Draft α))) := rfl

/-- A draft makes a command exactly when each draft of its tree keeps to the rules: names, aliases and groups
that can be used, no name twice in a draft or among the subcommands of one, an action and a legal usage where
there are no subcommands and neither where there are some, and flags for the top only at the top. The command
then has the shape of the draft, full names made of the names on the way down, the groups that are set nearest
on the way up, and all the rest as the draft has it. -/
theorem builds_proper_trees (d : Draft α) :
    ((∃ c, d.build = .ok c) ↔ ∀ above e, Within d above e → e.Proper above) ∧
      ∀ c, d.build = .ok c → c.Mirrors [] d := by
  rw [build_eq]
  refine ⟨⟨?_, fun proper => exists_buildUnder proper⟩, fun c built => mirrors_of_buildUnder built⟩
  rintro ⟨c, built⟩ above e within
  exact proper_of_buildUnder built within

namespace Sample

def add : Draft Unit where
  name := " ADD "
  documentation := ⟨"Put a song in", none, []⟩
  arguments := [{ name := "song", multi := true }]
  action? := some ()

def queue : Draft Unit where
  name := "Queue"
  aliases := ["Q"]
  group? := some "Media"
  documentation := ⟨"Songs to come", none, []⟩
  subcommands := [add]

def music : Draft Unit where
  name := "music"
  documentation := ⟨"Play music", none, []⟩
  dmAllowed := true
  subcommands := [queue]

/-- A sibling comes in under the alias that another has, in a different spelling. -/
def crowded : Draft Unit := { music with subcommands := [queue, { add with name := "q" }] }

theorem builds_proper_trees_nested :
    (∃ c, music.build = .ok c ∧ c.Mirrors [] music ∧ pathOf [music, queue, add] = "music queue add" ∧
      groupOf [music, queue, add] = "media") ∧ ¬∃ c, crowded.build = .ok c := by
  obtain ⟨c, built⟩ : ∃ c, music.build = .ok c := ⟨_, rfl⟩
  have mirrors := (builds_proper_trees music).2 c built
  refine ⟨⟨c, built, mirrors, by decide +kernel, by decide +kernel⟩, fun accepted => ?_⟩
  have proper := (builds_proper_trees crowded).1.mp accepted [] crowded .here
  exact absurd (proper.branch nofun).2.2 (by decide +kernel)

end Sample

end Draft

end ChatCommands
