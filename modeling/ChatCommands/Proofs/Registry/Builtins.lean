import ChatCommands.Proofs.Catalog.Registered
import ChatCommands.Proofs.Registry.Stability

namespace ChatCommands

variable {α : Type}

/-- The command that the draft of `help` is built into. -/
def Builtin.helpCommand (action : α) : Command α :=
  .leaf ⟨"help", [], "util", false, true, false, (help action).documentation, none, none⟩
    ⟨(help action).arguments⟩ action

theorem Builtin.build_help (action : α) : (help action).build = .ok (helpCommand action) := by
  have named : Name.normalise "help" = .ok "help" := by decide +kernel
  have grouped : Name.normalise "util" = .ok "util" := by decide +kernel
  unfold Draft.build help Draft.buildUnder Draft.buildProfile
  simp only [named, group, grouped]
  rfl

namespace Registry

variable {r after : Registry α} {admitted : Group → Prop} {actions : BuiltinActions α}

theorem command?_help_of_addBuiltins (sound : r.Sound) (run : r.addBuiltins actions = (after, none)) :
    after.command? "help" = some (Builtin.helpCommand actions.help) := by
  have sound' : after.Sound := by
    have grows : Grows (fun _ => True) r (r.addBuiltins actions).1 := grows_addBuiltins fun _ _ => trivial
    rw [run] at grows
    exact grows.sound sound
  rw [addBuiltins] at run
  cases grouped : r.addGroup Builtin.group with
  | error e =>
    rw [grouped] at run
    cases run
  | ok between =>
    rw [grouped] at run
    change between.addDrafts (Builtin.drafts actions) = (after, none) at run
    have added : (Builtin.drafts actions).foldlM addDraft between = .ok after := by rw [foldlM_addDraft_eq, run]
    obtain ⟨cs, built, rfl⟩ := foldlM_addDraft_eq_ok added
    obtain ⟨_, _, _, others, rfl⟩ := List.forall₂_cons_left_iff.mp built
    obtain ⟨help, _, helps, _, rfl⟩ := List.forall₂_cons_left_iff.mp others
    cases helps.symm.trans (Builtin.build_help actions.help)
    have folded : Text.lower "help" = "help" := by decide +kernel
    refine (Command.find?_eq_some sound'.distinct).mpr ⟨List.mem_append_right _ ?_, ?_⟩
    · exact List.mem_cons_of_mem _ (List.mem_cons_self ..)
    · rw [folded, Command.answersTo_iff]
      exact List.mem_cons_self ..

/-- The registries to which the built-in commands have been added, in whichever operation, and whatever
operations came before and after it. -/
inductive Equipped (admitted : Group → Prop) (actions : BuiltinActions α) : Registry α → Prop
  | added {before after : Registry α} : before.Reachable admitted → before.addBuiltins actions = (after, none) →
      Equipped admitted actions after
  | step {before : Registry α} {op} : Equipped admitted actions before → op.Admits admitted →
      Equipped admitted actions (before.register op).1

theorem equipped_of_forConfig {config : Config} (wanted : config.registerDefaults = true)
    (run : forConfig config actions = .ok r) : r.Equipped admitted actions := by
  rw [forConfig, if_pos wanted] at run
  split at run
  · rename_i added
    cases run
    exact .added .new added
  · cases run

theorem Equipped.reachable (equipped : r.Equipped admitted actions) : r.Reachable admitted := by
  induction equipped with
  | @added before _ reach run =>
    have step : (before.register (.builtins actions)).1.Reachable admitted := reach.step trivial
    rw [register, run] at step
    exact step
  | step _ allowed ih => exact ih.step allowed

/-- Once the built-in commands are there, no command takes the place of `help`. -/
theorem Equipped.command?_help (equipped : r.Equipped admitted actions) :
    r.command? "help" = some (Builtin.helpCommand actions.help) := by
  induction equipped with
  | added reach run => exact command?_help_of_addBuiltins reach.sound run
  | @step before op equipped _ ih =>
    have sound := equipped.reachable.sound
    have grows := before.grows_any op
    exact grows.extended.command?_eq_some sound (grows.sound sound) ih

end Registry

end ChatCommands
