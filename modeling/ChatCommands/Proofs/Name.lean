import ChatCommands.Group
import ChatCommands.Proofs.Text.Case

namespace ChatCommands

theorem bind_eq_ok {ε α β : Type} {first : Except ε α} {next : α → Except ε β} {result : β} :
    first >>= next = .ok result ↔ ∃ value, first = .ok value ∧ next value = .ok result := by
  cases first with
  | error e =>
    constructor
    · intro run
      cases run
    · rintro ⟨_, run, _⟩
      cases run
  | ok value =>
    constructor
    · exact fun run => ⟨value, rfl, run⟩
    · rintro ⟨_, same, run⟩
      cases same
      exact run

theorem mapError_eq_ok {ε ε' α : Type} {f : ε → ε'} {run : Except ε α} {value : α} :
    run.mapError f = .ok value ↔ run = .ok value := by
  cases run with
  | error => exact ⟨nofun, nofun⟩
  | ok => rw [Except.mapError, Except.ok.injEq, Except.ok.injEq]

theorem forall₂_of_mapM {ε α β : Type} {f : α → Except ε β} {xs : List α} {ys : List β}
    (run : xs.mapM f = .ok ys) : List.Forall₂ (fun x y => f x = .ok y) xs ys := by
  induction xs generalizing ys with
  | nil =>
    cases run
    exact .nil
  | cons x rest ih =>
    rw [List.mapM_cons] at run
    obtain ⟨y, first, run⟩ := bind_eq_ok.mp run
    obtain ⟨later, below, made⟩ := bind_eq_ok.mp run
    cases made
    exact .cons first (ih below)

section Related

variable {α β : Type} {R : α → β → Prop} {xs : List α} {ys : List β}

theorem exists_forall₂ (each : ∀ x ∈ xs, ∃ y, R x y) : ∃ ys, List.Forall₂ R xs ys := by
  induction xs with
  | nil => exact ⟨[], .nil⟩
  | cons x rest ih =>
    obtain ⟨⟨y, first⟩, others⟩ := List.forall_mem_cons.mp each
    obtain ⟨ys, later⟩ := ih others
    exact ⟨y :: ys, .cons first later⟩

theorem exists_of_forall₂ (each : List.Forall₂ R xs ys) {y : β} (member : y ∈ ys) : ∃ x ∈ xs, R x y := by
  induction each with
  | nil => cases member
  | cons first _ ih =>
    rcases List.mem_cons.mp member with rfl | later
    · exact ⟨_, List.mem_cons_self .., first⟩
    · obtain ⟨x, found, given⟩ := ih later
      exact ⟨x, List.mem_cons_of_mem _ found, given⟩

end Related

theorem exists_of_mem_mapM {ε α β : Type} {f : α → Except ε β} {xs : List α} {ys : List β}
    (run : xs.mapM f = .ok ys) {y : β} (member : y ∈ ys) : ∃ x ∈ xs, f x = .ok y :=
  exists_of_forall₂ (forall₂_of_mapM run) member

theorem exists_mapM {ε α β : Type} {f : α → Except ε β} {xs : List α} (each : ∀ x ∈ xs, ∃ y, f x = .ok y) :
    ∃ ys, xs.mapM f = .ok ys := by
  induction xs with
  | nil => exact ⟨[], rfl⟩
  | cons x rest ih =>
    obtain ⟨⟨y, first⟩, others⟩ := List.forall_mem_cons.mp each
    obtain ⟨ys, later⟩ := ih others
    exact ⟨y :: ys, by rw [List.mapM_cons, first, later]; rfl⟩

namespace Name

open Text

/-- The names that commands and groups are kept under: words that lowercase leaves alone. -/
structure IsNormal (name : String) : Prop where
  word : IsWord name
  lowered : lower name = name

theorem isWord_lower {s : String} (word : IsWord s) : IsWord (lower s) :=
  ⟨lower_ne_empty word.1, hasBlank_lower word.2⟩

theorem isNormal_lower {s : String} (word : IsWord s) : IsNormal (lower s) :=
  ⟨isWord_lower word, lower_lower s⟩

theorem normalise_eq_ok {raw name : String} :
    normalise raw = .ok name ↔ IsWord (trim raw) ∧ lower (trim raw) = name := by
  simp only [normalise]
  by_cases empty : (trim raw).isEmpty = true
  · rw [if_pos empty]
    constructor
    · intro run
      cases run
    · rintro ⟨word, _⟩
      exact absurd (String.isEmpty_iff.mp empty) word.1
  · rw [if_neg empty]
    by_cases blank : hasBlank (trim raw) = true
    · rw [if_pos blank]
      constructor
      · intro run
        cases run
      · rintro ⟨word, _⟩
        exact absurd blank (Bool.eq_false_iff.mp word.2)
    · rw [if_neg blank, Except.ok.injEq]
      have present : trim raw ≠ "" := fun none => empty (String.isEmpty_iff.mpr none)
      have word : IsWord (trim raw) := ⟨present, Bool.eq_false_iff.mpr blank⟩
      exact ⟨fun same => ⟨word, same⟩, fun ⟨_, same⟩ => same⟩

theorem isNormal_of_normalise {raw name : String} (run : normalise raw = .ok name) : IsNormal name := by
  obtain ⟨word, rfl⟩ := normalise_eq_ok.mp run
  exact isNormal_lower word

theorem dropWhile_of_solid {cs : List Char} (solid : ∀ c ∈ cs, isBlank c = false) : cs.dropWhile isBlank = cs := by
  cases cs with
  | nil => rfl
  | cons c rest => exact List.dropWhile_cons_of_neg (by simp [solid c (List.mem_cons_self ..)])

theorem trim_of_isWord {name : String} (word : IsWord name) : trim name = name := by
  have solid := hasBlank_eq_false_iff.mp word.2
  have back : name.toList.reverse.dropWhile isBlank = name.toList.reverse :=
    dropWhile_of_solid fun c member => solid c (List.mem_reverse.mp member)
  rw [trim, trimStart, dropWhile_of_solid solid, trimEnd, back, List.reverse_reverse, String.ofList_toList]

/-- To bring a name into normal form a second time changes nothing. -/
theorem normalise_of_isNormal {name : String} (normal : IsNormal name) : normalise name = .ok name :=
  normalise_eq_ok.mpr ⟨(trim_of_isWord normal.word).symm ▸ normal.word,
    (congrArg lower (trim_of_isWord normal.word)).trans normal.lowered⟩

theorem under_some (path name : String) : under (some path) name = path ++ " " ++ name := by
  simp [under, toString]

theorem words_under (parent? : Option String) {name : String} (word : IsWord name) :
    words (under parent? name) = (parent?.map words).getD [] ++ [name] := by
  cases parent? with
  | none => exact word.words_eq
  | some path => rw [under_some, words_append_space, word.words_eq]; rfl

end Name

theorem Group.name_of_make {name description : String} {g : Group} (run : Group.make name description = .ok g) :
    Name.IsNormal g.name := by
  obtain ⟨normal, named, made⟩ := bind_eq_ok.mp run
  cases made
  exact Name.isNormal_of_normalise named

end ChatCommands
