import Mathlib.Data.List.Induction
import ChatCommands.Proofs.Command.Lineage
import ChatCommands.Registry

namespace ChatCommands

namespace Command

variable {α : Type}

theorem descend?_append {c : Command α} {tokens later : List String} :
    c.descend? (tokens ++ later) = c.descend? tokens >>= fun b => b.descend? later := by
  induction tokens generalizing c with
  | nil => rfl
  | cons token rest ih =>
    simp only [List.cons_append, descend?, Option.bind_eq_bind, Option.bind_assoc, ih]

/-- Letter case makes no difference on the way down. -/
theorem descend?_congr {c : Command α} {tokens others : List String}
    (same : tokens.map Text.lower = others.map Text.lower) : c.descend? tokens = c.descend? others := by
  induction tokens generalizing c others with
  | nil => rw [List.map_eq_nil_iff.mp same.symm]
  | cons token rest ih =>
    cases others with
    | nil => cases same
    | cons other later =>
      obtain ⟨first, below⟩ := List.cons.inj same
      simp only [descend?, child?, find?, first]
      exact congrArg _ (funext fun b => ih below)

end Command

namespace Registry

variable {α : Type} {r : Registry α}

/-- What lookups rely on: at every level, names are normal and tell the commands apart. -/
structure Sound (r : Registry α) : Prop where
  distinct : Command.Distinct r.commands
  formed : ∀ c ∈ r.commands, c.WellFormed none

/-- The commands of a registry at every depth, each with the commands above it, from the top down. -/
abbrev Lineage (r : Registry α) : List (Command α) → Command α → Prop := Command.Lineage r.commands

theorem follow?_singleton {token : String} : r.follow? [token] = r.command? token := by
  simp [follow?, Command.descend?]

theorem follow?_append {tokens later : List String} (present : tokens ≠ []) :
    r.follow? (tokens ++ later) = r.follow? tokens >>= fun c => c.descend? later := by
  cases tokens with
  | nil => exact absurd rfl present
  | cons token rest =>
    simp only [List.cons_append, follow?, Option.bind_eq_bind, Option.bind_assoc, Command.descend?_append]

theorem follow?_concat {tokens : List String} {token : String} (present : tokens ≠ []) :
    r.follow? (tokens ++ [token]) = r.follow? tokens >>= fun c => c.child? token := by
  rw [follow?_append present]
  simp [Command.descend?]

theorem follow?_congr {tokens others : List String} (same : tokens.map Text.lower = others.map Text.lower) :
    r.follow? tokens = r.follow? others := by
  cases tokens with
  | nil => rw [List.map_eq_nil_iff.mp same.symm]
  | cons token rest =>
    cases others with
    | nil => cases same
    | cons other later =>
      obtain ⟨first, below⟩ := List.cons.inj same
      simp only [follow?, command?, Command.find?, first]
      exact congrArg _ (funext fun c => Command.descend?_congr below)

/-- Following tokens leads to a command exactly when they name the commands on the way down to it.
The induction is on the tokens from the last one back, since a command's place is told from its parent's. -/
theorem Sound.follow?_eq_some (sound : r.Sound) {tokens : List String} {c : Command α} :
    r.follow? tokens = some c ↔ ∃ above, r.Lineage above c ∧ Command.Answer (above ++ [c]) tokens := by
  induction tokens using List.reverseRecOn generalizing c with
  | nil =>
    refine ⟨fun found => (nomatch found), fun ⟨above, _, answer⟩ => ?_⟩
    have shape := List.forall₂_nil_right_iff.mp answer
    simp at shape
  | append_singleton before token ih =>
    by_cases empty : before = []
    · subst empty
      rw [List.nil_append, follow?_singleton, command?, Command.find?_eq_some sound.distinct]
      constructor
      · rintro ⟨member, named⟩
        exact ⟨[], .top member, .cons named .nil⟩
      · rintro ⟨above, reach, answer⟩
        obtain ⟨before, last, shape, inner, named⟩ := Command.answer_concat_iff.mp answer
        have split : [] ++ [token] = before ++ [last] := shape
        obtain ⟨rfl, same⟩ := List.append_inj' split rfl
        cases same
        have none : above = [] := List.forall₂_nil_right_iff.mp inner
        subst none
        rcases reach.cases_above with ⟨_, member⟩ | ⟨_, _, shape, _⟩
        · exact ⟨member, named⟩
        · simp at shape
    · rw [follow?_concat empty, Option.bind_eq_bind, Option.bind_eq_some_iff]
      constructor
      · rintro ⟨b, found, child⟩
        obtain ⟨above, reach, answer⟩ := ih.mp found
        obtain ⟨member, named⟩ := (Command.find?_eq_some (reach.formed sound.formed).distinct).mp child
        have whole := Command.answer_concat_iff.mpr ⟨before, token, rfl, answer, named⟩
        exact ⟨above ++ [b], .child reach member, whole⟩
      · rintro ⟨above, reach, answer⟩
        obtain ⟨before', last, shape, inner, named⟩ := Command.answer_concat_iff.mp answer
        obtain ⟨rfl, same⟩ := List.append_inj' shape rfl
        cases same
        rcases reach.cases_above with ⟨rfl, _⟩ | ⟨above, b, rfl, reach, member⟩
        · cases inner
          exact absurd rfl empty
        · have siblings := (reach.formed sound.formed).distinct
          exact ⟨b, ih.mpr ⟨above, reach, inner⟩, (Command.find?_eq_some siblings).mpr ⟨member, named⟩⟩

end Registry

end ChatCommands
