import ChatCommands.Proofs.Catalog.Registered
import ChatCommands.Proofs.Registry.InPlace
import ChatCommands.Proofs.Registry.Valid

namespace ChatCommands

variable {α : Type}

/-- Some group stands under this name. Names are kept in lowercase, and looked up in lowercase. -/
def Group.Taken (groups : List Group) (name : String) : Prop := ∃ g ∈ groups, g.name = Text.lower name

theorem Group.Made.taken_iff {g : Group} (made : g.Made) {groups : List Group} :
    Group.Taken groups g.name ↔ g.name ∈ groups.map (·.name) := by
  rw [Taken, made.normal.lowered, List.mem_map]

/-- The points at which a catalog can fail, each with the copy as it is by then. -/
inductive Catalog.Fails [TemplateEngine] (c : Catalog) (bindings : Bindings α) (r : Registry α) :
    Registry α → DefinitionError → Prop
  | groupDeclaration {e} : c.toGroups = .error e → Fails c bindings r r e
  | group {before g later} : c.toGroups = .ok (before ++ g :: later) →
      Group.Taken (r.groups ++ before) g.name →
      Fails c bindings r { r with groups := r.groups ++ before } (.duplicateGroup g.name)
  | commandDeclaration {gs e} : c.toGroups = .ok gs → c.toDrafts bindings = .error e →
      Fails c bindings r { r with groups := r.groups ++ gs } e
  | command {gs before d later copy e} : c.toGroups = .ok gs →
      c.toDrafts bindings = .ok (before ++ d :: later) →
      Registry.addDrafts { r with groups := r.groups ++ gs } before = (copy, none) →
      copy.addDraft d = .error e → Fails c bindings r copy e

/-- The steps in which the built-in group and commands are added. -/
def Builtin.steps (actions : BuiltinActions α) : List (Registration α) :=
  [.group group, .draft (ping actions.ping), .draft (help actions.help), .draft (shutdown actions.shutdown)]

namespace Registry

/-- Operations that succeed one after another. -/
inductive Completes : Registry α → List (Registration α) → Registry α → Prop
  | nil {r} : Completes r [] r
  | cons {r next after op ops} : r.register op = (next, none) → Completes next ops after →
      Completes r (op :: ops) after

end Registry

/-- What an operation that fails leaves of the registry `r`. -/
def Registration.Leaves (r after : Registry α) (e : DefinitionError) : Registration α → Prop
  | group _ | draft _ | built _ _ => after = r
  | catalog _ c bindings => after = r ∧ ∃ copy, c.Fails bindings r copy e
  | groups gs => ∃ before g later, gs = before ++ g :: later ∧
      after = { r with groups := r.groups ++ before } ∧ e = .duplicateGroup g.name ∧
      Group.Taken (r.groups ++ before) g.name ∧
      ∀ earlier x between, before = earlier ++ x :: between → ¬ Group.Taken (r.groups ++ earlier) x.name
  | builtins actions => ∃ done step rest, Builtin.steps actions = done ++ step :: rest ∧
      r.Completes done after ∧ after.register step = (after, some e)

namespace Registry

variable {r after : Registry α} {e : DefinitionError}

theorem taken_iff {name : String} : (r.group? name).isSome = true ↔ Group.Taken r.groups name := by
  rw [Option.isSome_iff_ne_none, ne_eq, group?_eq_none, Group.Taken]
  push Not
  rfl

theorem addGroup_eq_error {g : Group} :
    r.addGroup g = .error e ↔ Group.Taken r.groups g.name ∧ e = .duplicateGroup g.name := by
  rw [← taken_iff, addGroup]
  by_cases taken : (r.group? g.name).isSome = true
  · rw [if_pos taken, Except.error.injEq, eq_comm]
    exact (and_iff_right taken).symm
  · rw [if_neg taken]
    refine ⟨fun accepted => ?_, fun both => absurd both.1 taken⟩
    cases accepted

/-- Groups are added up to the first whose name is taken. -/
theorem addGroups_eq_error {gs : List Group} (run : r.addGroups gs = (after, some e)) :
    (Registration.groups gs).Leaves r after e := by
  induction gs generalizing r with
  | nil => cases run
  | cons g rest ih =>
    rw [addGroups] at run
    cases added : r.addGroup g with
    | error fault =>
      rw [added] at run
      cases run
      obtain ⟨taken, rfl⟩ := addGroup_eq_error.mp added
      rw [← List.append_nil after.groups] at taken
      refine ⟨[], g, rest, rfl, by rw [List.append_nil], rfl, taken, fun earlier x between split => ?_⟩
      cases List.append_eq_nil_iff.mp split.symm |>.2
    | ok next =>
      rw [added] at run
      obtain ⟨absent, rfl⟩ := addGroup_eq_ok.mp added
      have free : ¬ Group.Taken r.groups g.name := by
        rw [← taken_iff, absent]
        exact Bool.false_ne_true
      obtain ⟨before, last, later, rfl, rfl, rfl, taken, first⟩ := ih run
      have whole (more : List Group) : r.groups ++ [g] ++ more = r.groups ++ g :: more := (List.append_cons ..).symm
      simp only [whole] at taken first ⊢
      refine ⟨g :: before, last, later, rfl, rfl, rfl, taken, fun earlier x between split => ?_⟩
      · cases earlier with
        | nil =>
          obtain ⟨rfl, _⟩ := List.cons.inj split
          rwa [List.append_nil]
        | cons _ earlier =>
          obtain ⟨rfl, within⟩ := List.cons.inj split
          exact first earlier x between within

/-- Drafts are added up to the first that is refused. -/
theorem addDrafts_eq_error {ds : List (Draft α)} (run : r.addDrafts ds = (after, some e)) :
    ∃ before d later, ds = before ++ d :: later ∧ r.addDrafts before = (after, none) ∧
      after.addDraft d = .error e := by
  induction ds generalizing r with
  | nil => cases run
  | cons d rest ih =>
    rw [addDrafts] at run
    cases added : r.addDraft d with
    | error fault =>
      rw [added] at run
      cases run
      exact ⟨[], d, rest, rfl, rfl, added⟩
    | ok next =>
      rw [added] at run
      obtain ⟨before, last, later, rfl, done, refused⟩ := ih run
      refine ⟨d :: before, last, later, rfl, ?_, refused⟩
      rw [addDrafts, added]
      exact done

theorem completes_addDrafts {ds : List (Draft α)} (run : r.addDrafts ds = (after, none)) :
    r.Completes (ds.map .draft) after := by
  induction ds generalizing r with
  | nil =>
    cases run
    exact .nil
  | cons d rest ih =>
    rw [addDrafts] at run
    cases added : r.addDraft d with
    | error fault =>
      rw [added] at run
      cases run
    | ok next =>
      rw [added] at run
      have first : r.register (.draft d) = (next, none) := by rw [register, added, settle]
      exact .cons first (ih run)

/-- A catalog fails on the copy, at one of these points. -/
theorem fails_of_additions [TemplateEngine] {c : Catalog} {bindings : Bindings α} {copy : Registry α}
    (run : (Edit.additions c bindings).leave r = (copy, some e)) : c.Fails bindings r copy e := by
  rw [Edit.leave_additions] at run
  cases declared : c.toGroups with
  | error fault =>
    rw [declared] at run
    cases run
    exact .groupDeclaration declared
  | ok gs =>
    simp only [declared] at run
    cases grouping : r.addGroups gs with
    | mk grouped fault? =>
      simp only [grouping] at run
      cases fault? with
      | some fault =>
        cases run
        obtain ⟨before, g, later, rfl, rfl, rfl, taken, _⟩ := addGroups_eq_error grouping
        exact .group declared taken
      | none =>
        obtain rfl := addGroups_eq grouping
        cases drafting : c.toDrafts bindings with
        | error fault =>
          simp only [drafting] at run
          cases run
          exact .commandDeclaration declared drafting
        | ok ds =>
          simp only [drafting] at run
          obtain ⟨before, d, later, rfl, done, refused⟩ := addDrafts_eq_error run
          exact .command declared drafting done refused

theorem addBuiltins_eq_error {actions : BuiltinActions α} (run : r.addBuiltins actions = (after, some e)) :
    (Registration.builtins actions).Leaves r after e := by
  rw [addBuiltins] at run
  cases added : r.addGroup Builtin.group with
  | error fault =>
    rw [added] at run
    cases run
    exact ⟨[], _, _, rfl, .nil, by rw [register, added, settle]⟩
  | ok grouped =>
    rw [added] at run
    have first : r.register (.group Builtin.group) = (grouped, none) := by rw [register, added, settle]
    obtain ⟨before, d, later, split, done, refused⟩ := addDrafts_eq_error run
    refine ⟨.group Builtin.group :: before.map .draft, .draft d, later.map .draft, ?_,
      .cons first (completes_addDrafts done), by rw [register, refused, settle]⟩
    have steps := congrArg (List.map Registration.draft) split
    rw [List.map_append, List.map_cons] at steps
    exact congrArg _ steps

theorem settle_eq_error {outcome : Except DefinitionError (Registry α)} (run : r.settle outcome = (after, some e)) :
    after = r ∧ outcome = .error e := by
  cases outcome with
  | ok => cases run
  | error fault =>
    cases run
    exact ⟨rfl, rfl⟩

theorem exists_leave (r : Registry α) (edit : Edit α Unit) {e : DefinitionError} (failed : (edit.leave r).2 = some e) :
    ∃ after, edit.leave r = (after, some e) :=
  ⟨_, by rw [← failed]⟩

theorem leaves_of_edit {op : Registration α} (failed : op.edit.leave r = (after, some e)) : op.Leaves r after e := by
  have run := (leave_edit op).symm.trans failed
  cases op with
  | group g => exact (settle_eq_error run).1
  | groups gs => exact addGroups_eq_error run
  | draft d => exact (settle_eq_error run).1
  | built c origin => exact (settle_eq_error run).1
  | catalog _ c bindings =>
    rw [Registration.edit, Edit.leave_onCopy] at failed
    cases staged : (Edit.additions c bindings).leave r with
    | mk copy fault? =>
      rw [staged] at failed
      cases fault? with
      | none => cases failed
      | some fault =>
        cases failed
        exact ⟨rfl, copy, fails_of_additions staged⟩
  | builtins actions => exact addBuiltins_eq_error run

/-- What an operation that fails leaves of a registry is known, wherever it fails. The operations work in place here,
statement by statement, and come to what they are said to come to. A command that is added as such may also be one
that no draft is built into, such as a subcommand of another. -/
theorem failure_leaves (r : Registry α) :
    (∀ {op : Registration α} {after e}, op.edit.leave r = (after, some e) →
      r.register op = (after, some e) ∧ op.Leaves r after e) ∧
    (∀ {c : Command α} {after e}, (Edit.command c).leave r = (after, some e) →
      r.addCommand c = .error e ∧ after = r) ∧
    ∀ {g : Group} {groups : List Group}, g.Made → (Group.Taken groups g.name ↔ g.name ∈ groups.map (·.name)) := by
  refine ⟨fun failed => ⟨(leave_edit _).symm.trans failed, leaves_of_edit failed⟩, fun failed => ?_,
    fun made => made.taken_iff⟩
  have settled := (Edit.leave_command _).symm.trans failed
  exact (settle_eq_error settled).symm

namespace Sample

/-- A group is new, and the next one is not. -/
def halfNew : List Group := [⟨"games", "Games", "Games"⟩, tools, ⟨"more", "More", "More"⟩]

/-- The last of its commands has a name that is an alias of the sample command. -/
def clashing : Catalog where
  groups := [{ name := "Games", description := "Games" }]
  commands := [
    { name := "roll", description := "Roll a die", group? := some "games" },
    { name := "git-log", description := "What was done"
      subcommands := [{ name := "all", description := "All of it" }] },
    { name := "G", description := "Go" }]

def actions : Bindings Unit := [("roll", ()), ("git-log all", ()), ("g", ())]

def clash : Registration Unit := .catalog Catalog.Sample.verbatim clashing actions

/-- It takes the name of a built-in command. -/
def assist : Draft Unit where
  name := "assist"
  aliases := ["help"]
  documentation := ⟨"Help out", none, []⟩
  action? := some ()

def assisted : Registry Unit := (registry.register (.draft assist)).1

def builtins : Registration Unit := .builtins ⟨(), (), ()⟩

end Sample

/-- A catalog fails at its last command, a list of groups at the second, and the built-in commands at `help`. -/
theorem failure_leaves_half_way :
    (∃ after, Sample.clash.edit.leave Sample.registry = (after, some (.duplicateName "top level" "g")) ∧
      after = Sample.registry) ∧
    (∃ after, (Registration.groups Sample.halfNew).edit.leave Sample.registry =
      (after, some (.duplicateGroup "tools")) ∧ after.groups.map (·.name) = ["default", "tools", "games"] ∧
        (Registration.groups Sample.halfNew).Leaves Sample.registry after (.duplicateGroup "tools")) ∧
    ∃ after, Sample.builtins.edit.leave Sample.assisted = (after, some (.duplicateName "top level" "help")) ∧
      after.commands.map (·.name) = ["git", "assist", "ping"] ∧
        Sample.builtins.Leaves Sample.assisted after (.duplicateName "top level" "help") := by
  obtain ⟨copied, first⟩ := exists_leave Sample.registry Sample.clash.edit
    (e := .duplicateName "top level" "g") (by decide +kernel)
  obtain ⟨grouped, second⟩ := exists_leave Sample.registry (Registration.groups Sample.halfNew).edit
    (e := .duplicateGroup "tools") (by decide +kernel)
  obtain ⟨equipped, third⟩ := exists_leave Sample.assisted Sample.builtins.edit
    (e := .duplicateName "top level" "help") (by decide +kernel)
  have names : (((Registration.groups Sample.halfNew).edit.leave Sample.registry).1.groups.map (·.name)) =
      ["default", "tools", "games"] := by decide +kernel
  have commands : ((Sample.builtins.edit.leave Sample.assisted).1.commands.map (·.name)) =
      ["git", "assist", "ping"] := by decide +kernel
  rw [second] at names
  rw [third] at commands
  exact ⟨⟨copied, first, ((failure_leaves _).1 first).2.1⟩, ⟨grouped, second, names, ((failure_leaves _).1 second).2⟩,
    ⟨equipped, third, commands, ((failure_leaves _).1 third).2⟩⟩

end Registry

end ChatCommands
