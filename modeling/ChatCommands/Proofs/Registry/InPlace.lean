import ChatCommands.Proofs.Registry.Registration

namespace ChatCommands.Registry

variable {α : Type}

/-- Work on a registry in place. What was written before a failure stays written. -/
abbrev Edit (α β : Type) := ExceptT DefinitionError (StateM (Registry α)) β

namespace Edit

/-- Something that writes nothing, and may fail. -/
def attempt {β : Type} : Except DefinitionError β → Edit α β
  | .ok value => pure value
  | .error e => throw e

def group (g : Group) : Edit α Unit := do
  if ((← get).group? g.name).isSome then throw (.duplicateGroup g.name)
  modify fun r => { r with groups := r.groups ++ [g] }

def groups : List Group → Edit α Unit
  | [] => pure ()
  | g :: rest => do
    group g
    groups rest

def command (c : Command α) : Edit α Unit := do
  let r ← get
  if let some taken := c.names.find? fun name => (r.command? name).isSome then
    throw (.duplicateName "top level" taken)
  attempt (r.checkGroups c)
  modify fun r => { r with commands := r.commands ++ [c] }

def draft (d : Draft α) : Edit α Unit := do
  command (← attempt d.build)

def drafts : List (Draft α) → Edit α Unit
  | [] => pure ()
  | d :: rest => do
    draft d
    drafts rest

/-- Works on a copy, which is put in place of the registry when nothing has failed. -/
def onCopy (edit : Edit α Unit) : Edit α Unit := do
  let (outcome, copy) := edit.run.run (← get)
  attempt outcome
  set copy

/-- All that a catalog brings along, one after another. -/
def additions [TemplateEngine] (c : Catalog) (bindings : Bindings α) : Edit α Unit := do
  groups (← attempt c.toGroups)
  drafts (← attempt (c.toDrafts bindings))

def builtins (actions : BuiltinActions α) : Edit α Unit := do
  group Builtin.group
  drafts (Builtin.drafts actions)

/-- The registry that an edit leaves, and the fault of an edit that failed. -/
def leave (edit : Edit α Unit) (r : Registry α) : Registry α × Option DefinitionError :=
  match edit.run.run r with
  | (.ok (), after) => (after, none)
  | (.error e, after) => (after, some e)

end Edit

end ChatCommands.Registry

namespace ChatCommands

variable {α : Type}

/-- An operation as it works in place, statement by statement. -/
def Registration.edit : Registration α → Registry.Edit α Unit
  | group g => .group g
  | groups gs => .groups gs
  | draft d => .draft d
  | built c _ => .command c
  | catalog _ c bindings => .onCopy (.additions c bindings)
  | builtins actions => .builtins actions

namespace Registry

variable {r : Registry α}

namespace Edit

theorem leave_bind {β : Type} {first : Edit α β} {next : β → Edit α Unit} :
    (first >>= next).leave r =
      match first.run.run r with
      | (.ok value, between) => (next value).leave between
      | (.error e, between) => (between, some e) := by
  rw [leave, ExceptT.run_bind, StateT.run_bind]
  rcases first.run.run r with ⟨_ | _, between⟩ <;> rfl

/-- An edit goes on from where the edit before it has ended, unless that has failed. -/
theorem leave_seq {first : Edit α Unit} {next : Unit → Edit α Unit} :
    (first >>= next).leave r =
      match first.leave r with
      | (between, none) => (next ()).leave between
      | (between, some e) => (between, some e) := by
  rw [leave_bind, leave]
  rcases first.run.run r with ⟨_ | _, between⟩ <;> rfl

theorem leave_attempt_bind {β : Type} {outcome : Except DefinitionError β} {next : β → Edit α Unit} :
    (attempt outcome >>= next).leave r =
      match outcome with
      | .ok value => (next value).leave r
      | .error e => (r, some e) := by
  cases outcome <;> rfl

theorem leave_onCopy {edit : Edit α Unit} :
    edit.onCopy.leave r =
      match edit.leave r with
      | (after, none) => (after, none)
      | (_, some e) => (r, some e) := by
  rw [onCopy, leave_bind, leave]
  change Edit.leave _ r = _
  rcases edit.run.run r with ⟨_ | _, copy⟩ <;> rfl

theorem leave_group (g : Group) : (group g).leave r = r.settle (r.addGroup g) := by
  rw [addGroup, group, leave_bind]
  change Edit.leave _ r = _
  by_cases taken : (r.group? g.name).isSome = true
  · rw [if_pos taken, if_pos taken]
    rfl
  · rw [if_neg taken, if_neg taken]
    rfl

theorem leave_groups (gs : List Group) : (groups gs).leave r = r.addGroups gs := by
  induction gs generalizing r with
  | nil => rfl
  | cons g rest ih =>
    rw [groups, leave_seq, leave_group, addGroups]
    cases r.addGroup g with
    | error e => rfl
    | ok after => exact ih

theorem leave_command (c : Command α) : (command c).leave r = r.settle (r.addCommand c) := by
  rw [addCommand, command, leave_bind]
  change Edit.leave _ r = _
  cases c.names.find? fun name => (r.command? name).isSome with
  | some taken => rfl
  | none => cases r.checkGroups c <;> rfl

theorem leave_draft (d : Draft α) : (draft d).leave r = r.settle (r.addDraft d) := by
  rw [draft, leave_attempt_bind, addDraft]
  cases d.build with
  | error e => rfl
  | ok c => exact leave_command c

theorem leave_drafts (ds : List (Draft α)) : (drafts ds).leave r = r.addDrafts ds := by
  induction ds generalizing r with
  | nil => rfl
  | cons d rest ih =>
    rw [drafts, leave_seq, leave_draft, addDrafts]
    cases r.addDraft d with
    | error e => rfl
    | ok after => exact ih

theorem leave_builtins (actions : BuiltinActions α) : (builtins actions).leave r = r.addBuiltins actions := by
  rw [builtins, leave_seq, leave_group, addBuiltins]
  cases r.addGroup Builtin.group with
  | error e => rfl
  | ok after => exact leave_drafts (Builtin.drafts actions)

theorem leave_additions [TemplateEngine] (c : Catalog) (bindings : Bindings α) :
    (additions c bindings).leave r =
      match c.toGroups with
      | .error e => (r, some e)
      | .ok gs =>
        match r.addGroups gs with
        | (grouped, some e) => (grouped, some e)
        | (grouped, none) =>
          match c.toDrafts bindings with
          | .error e => (grouped, some e)
          | .ok ds => grouped.addDrafts ds := by
  rw [additions, leave_attempt_bind]
  cases c.toGroups with
  | error e => rfl
  | ok gs =>
    simp only [leave_seq, leave_groups, leave_attempt_bind, leave_drafts]
    rcases r.addGroups gs with ⟨grouped, _ | e⟩
    · cases c.toDrafts bindings <;> rfl
    · rfl

end Edit

/-- A catalog is added when nothing of it fails on the copy. -/
theorem addCatalog_eq [TemplateEngine] (c : Catalog) (bindings : Bindings α) :
    r.settle (r.addCatalog c bindings) = (Edit.additions c bindings).onCopy.leave r := by
  rw [Edit.leave_onCopy, Edit.leave_additions, addCatalog]
  cases c.toGroups with
  | error e => rfl
  | ok gs =>
    simp only [bind, Except.bind]
    rcases r.addGroups gs with ⟨grouped, _ | e⟩
    · simp only [pure, Except.pure, foldlM_addDraft_eq]
      cases c.toDrafts bindings with
      | error e => rfl
      | ok ds =>
        simp only
        rcases grouped.addDrafts ds with ⟨after, _ | e⟩ <;> rfl
    · rfl

/-- Carried out statement by statement, every operation leaves what it is said to leave. -/
theorem leave_edit (op : Registration α) : op.edit.leave r = r.register op := by
  cases op with
  | group g => exact Edit.leave_group g
  | groups gs => exact Edit.leave_groups gs
  | draft d => exact Edit.leave_draft d
  | built c origin => exact Edit.leave_command c
  | catalog _ c bindings => exact (addCatalog_eq c bindings).symm
  | builtins actions => exact Edit.leave_builtins actions

end Registry

end ChatCommands
