import ChatCommands.Usage

namespace ChatCommands.Usage

/-- No argument comes after a multi one, and no mandatory one after an optional one. -/
def Legal (u : Usage) : Prop :=
  u.arguments.Pairwise fun a b => a.multi = false ∧ (a.isOptional = true → b.isOptional = true)

theorem misplaced?_some_eq_none {multi : String} {seen : Bool} {arguments : List Argument} :
    misplaced? (some multi) seen arguments = none ↔ arguments = [] := by
  cases arguments <;> simp [misplaced?]

/-- What one step of the scan asks of the argument in front, and of those behind it. -/
theorem misplaced?_cons_eq_none {seen : Bool} {a : Argument} {rest : List Argument} :
    misplaced? none seen (a :: rest) = none ↔
      (seen = true → a.isOptional = true) ∧
        if a.multi then rest = [] else misplaced? none (seen || a.isOptional) rest = none := by
  simp only [misplaced?]
  cases multi : a.multi with
  | true => cases seen <;> cases optional : a.isOptional <;> simp [misplaced?_some_eq_none]
  | false => cases seen <;> cases optional : a.isOptional <;> simp

theorem misplaced?_eq_none {seen : Bool} {arguments : List Argument} :
    misplaced? none seen arguments = none ↔
      (seen = true → ∀ a ∈ arguments, a.isOptional = true) ∧ Legal ⟨arguments⟩ := by
  induction arguments generalizing seen with
  | nil => simp [misplaced?, Legal]
  | cons a rest ih =>
    rw [misplaced?_cons_eq_none]
    simp only [Legal, List.pairwise_cons, List.forall_mem_cons]
    cases multi : a.multi with
    | true =>
      constructor
      · rintro ⟨first, none⟩
        rw [if_pos rfl] at none
        subst none
        exact ⟨fun seen => ⟨first seen, by simp⟩, by simp, List.Pairwise.nil⟩
      · rintro ⟨first, later, _⟩
        refine ⟨fun seen => (first seen).1, ?_⟩
        rw [if_pos rfl, List.eq_nil_iff_forall_not_mem]
        intro b member
        exact absurd (later b member).1.symm Bool.false_ne_true
    | false =>
      rw [if_neg Bool.false_ne_true, ih]
      simp only [Legal, Bool.or_eq_true, true_and]
      constructor
      · rintro ⟨first, later, legal⟩
        refine ⟨fun seen => ⟨first seen, later (.inl seen)⟩, ?_, legal⟩
        exact fun b member optional => later (.inr optional) b member
      · rintro ⟨first, later, legal⟩
        refine ⟨fun seen => (first seen).1, fun either b member => ?_, legal⟩
        rcases either with seen | optional
        · exact (first seen).2 b member
        · exact later b member optional

/-- The usages that can be made are exactly the legal ones. -/
theorem ofArguments_eq_ok {arguments : List Argument} {u : Usage} :
    ofArguments arguments = .ok u ↔ u = ⟨arguments⟩ ∧ u.Legal := by
  unfold ofArguments
  cases scan : misplaced? none false arguments with
  | none =>
    have legal := (misplaced?_eq_none.mp scan).2
    constructor
    · intro made
      cases made
      exact ⟨rfl, legal⟩
    · rintro ⟨rfl, _⟩
      rfl
  | some e =>
    constructor
    · intro made
      cases made
    · rintro ⟨rfl, legal⟩
      have clear : misplaced? none false arguments = none :=
        misplaced?_eq_none.mpr ⟨fun seen => absurd seen Bool.false_ne_true, legal⟩
      rw [scan] at clear
      cases clear

end ChatCommands.Usage
