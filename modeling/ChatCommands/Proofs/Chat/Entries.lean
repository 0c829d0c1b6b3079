import ChatCommands.Chat.Memory

namespace ChatCommands

variable {κ β : Type} [DecidableEq κ]

theorem lookup_entry (key : κ) (entry : κ × β) (rest : List (κ × β)) :
    (entry :: rest).lookup key = if key = entry.1 then some entry.2 else rest.lookup key := by
  by_cases same : key = entry.1
  · rw [List.lookup_cons, if_pos same, same, beq_self_eq_true]
  · rw [List.lookup_cons, if_neg same, beq_false_of_ne same]

theorem lookup_eraseEntry (key other : κ) (entries : List (κ × β)) :
    (eraseEntry key entries).lookup other = if other = key then none else entries.lookup other := by
  induction entries with
  | nil => exact (ite_self none).symm
  | cons entry rest ih =>
    rw [eraseEntry] at ih ⊢
    by_cases removed : entry.1 = key
    · rw [List.filter_cons_of_neg (by simpa using removed), ih, lookup_entry, removed]
      split <;> rfl
    · rw [List.filter_cons_of_pos (by simpa using removed), lookup_entry, lookup_entry, ih]
      by_cases same : other = key
      · subst same
        rw [if_neg (Ne.symm removed), if_pos rfl, if_pos rfl]
      · rw [if_neg same, if_neg same]

theorem lookup_setEntry (key other : κ) (value : β) (entries : List (κ × β)) :
    (setEntry key value entries).lookup other = if other = key then some value else entries.lookup other := by
  have rest := lookup_eraseEntry key other entries
  rw [eraseEntry] at rest
  rw [setEntry, lookup_entry, rest]
  by_cases same : other = key
  · rw [if_pos same, if_pos same]
  · rw [if_neg same, if_neg same, if_neg same]

theorem isSome_lookup_setEntry {key other : κ} {value : β} {entries : List (κ × β)} :
    ((setEntry key value entries).lookup other).isSome = true ↔
      other = key ∨ (entries.lookup other).isSome = true := by
  rw [lookup_setEntry]
  split
  · rename_i same
    exact ⟨fun _ => .inl same, fun _ => rfl⟩
  · rename_i differ
    exact ⟨.inr, fun either => either.resolve_left differ⟩

theorem isSome_lookup_eraseEntry {key other : κ} {entries : List (κ × β)} :
    ((eraseEntry key entries).lookup other).isSome = true ↔
      other ≠ key ∧ (entries.lookup other).isSome = true := by
  rw [lookup_eraseEntry]
  split
  · rename_i same
    exact ⟨nofun, fun both => absurd same both.1⟩
  · rename_i differ
    exact ⟨fun found => ⟨differ, found⟩, And.right⟩

/-- A key that is new is found once more. -/
theorem count_setEntry {key : κ} {entries : List (κ × β)} (absent : entries.lookup key = none) (value : β)
    (other : κ) : ((setEntry key value entries).lookup other).isSome.toNat =
      (entries.lookup other).isSome.toNat + [key].count other := by
  rw [lookup_setEntry, List.count_singleton]
  split
  · rename_i same
    rw [same, absent, beq_self_eq_true]
    rfl
  · rename_i differ
    rw [beq_false_of_ne (Ne.symm differ)]
    rfl

/-- A key that was there is found once less. -/
theorem count_eraseEntry {key : κ} {value : β} {entries : List (κ × β)}
    (present : entries.lookup key = some value) (other : κ) : (entries.lookup other).isSome.toNat =
      ((eraseEntry key entries).lookup other).isSome.toNat + [key].count other := by
  rw [lookup_eraseEntry, List.count_singleton]
  split
  · rename_i same
    rw [same, present, beq_self_eq_true]
    rfl
  · rename_i differ
    rw [beq_false_of_ne (Ne.symm differ)]
    rfl

theorem isSome_lookup_iff {key : κ} {entries : List (κ × β)} :
    (entries.lookup key).isSome = true ↔ key ∈ entries.map Prod.fst := by
  induction entries with
  | nil => simp
  | cons entry rest ih =>
    rw [lookup_entry, List.map_cons, List.mem_cons, ← ih]
    by_cases same : key = entry.1
    · simp [same]
    · simp [same]

end ChatCommands
