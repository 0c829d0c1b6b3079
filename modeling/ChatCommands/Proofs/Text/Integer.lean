import ChatCommands.Text.Integer
import Mathlib.Data.List.Induction
import Mathlib.Data.Nat.Digits.Defs

namespace ChatCommands.Text

/-- The characters of a row of decimal digits. -/
def row (ds : List (Fin 10)) : List Char := ds.map fun d => d.val.digitChar

/-- The number that a row of decimal digits stands for. The first digit is the highest. -/
def rowValue (ds : List (Fin 10)) : Nat := Nat.ofDigits 10 (ds.map Fin.val).reverse

/-- A token stands for a whole number: an optional sign and one or more decimal digits, leading zeros included. -/
inductive Writes : String → Int → Prop
  | plain {ds} : ds ≠ [] → Writes (String.ofList (row ds)) (rowValue ds)
  | plus {ds} : ds ≠ [] → Writes (String.ofList ('+' :: row ds)) (rowValue ds)
  | minus {ds} : ds ≠ [] → Writes (String.ofList ('-' :: row ds)) (-(rowValue ds : Int))

variable {c : Char} {cs : List Char} {ds : List (Fin 10)} {k : Nat} {n : Int} {token : String}

theorem isDigit_iff : c.isDigit = true ↔ ∃ d : Fin 10, c = d.val.digitChar := by
  constructor
  · intro digit
    obtain ⟨low, high⟩ := Char.isDigit_iff_toNat.mp digit
    have low : 48 ≤ c.toNat := low
    have high : c.toNat ≤ 57 := high
    have small : c.toNat - 48 < 10 := by omega
    refine ⟨⟨c.toNat - 48, small⟩, Char.toNat_inj.mp ?_⟩
    rw [Nat.toNat_digitChar_of_lt_ten small]
    omega
  · rintro ⟨d, rfl⟩
    rw [Nat.isDigit_digitChar]
    exact decide_eq_true d.isLt

theorem isDigit_of_mem_row (member : c ∈ row ds) : c.isDigit = true := by
  obtain ⟨d, _, rfl⟩ := List.mem_map.mp member
  exact isDigit_iff.mpr ⟨d, rfl⟩

theorem row_reverse : row ds.reverse = (row ds).reverse := List.map_reverse

/-- A row of digits begins with nothing but a digit. -/
theorem row_append_ne_cons {rest : List Char} (nonempty : ds ≠ []) (other : c.isDigit = false) :
    row ds ++ rest ≠ c :: cs := by
  obtain ⟨d, ds, rfl⟩ := List.exists_cons_of_ne_nil nonempty
  intro same
  have digit : c.isDigit = true := isDigit_iff.mpr ⟨d, (List.cons.inj same).1.symm⟩
  rw [other] at digit
  cases digit

theorem exists_row (digits : ∀ c ∈ cs, c.isDigit = true) : ∃ ds, cs = row ds := by
  induction cs with
  | nil => exact ⟨[], rfl⟩
  | cons c rest ih =>
    obtain ⟨first, others⟩ := List.forall_mem_cons.mp digits
    obtain ⟨d, rfl⟩ := isDigit_iff.mp first
    obtain ⟨ds, rfl⟩ := ih others
    exact ⟨d :: ds, rfl⟩

theorem isNumeral_iff : isNumeral cs = true ↔ ∃ ds, ds ≠ [] ∧ cs = row ds := by
  rw [isNumeral, Bool.and_eq_true, Bool.not_eq_true', List.isEmpty_eq_false_iff, List.all_eq_true]
  constructor
  · rintro ⟨nonempty, digits⟩
    obtain ⟨ds, rfl⟩ := exists_row digits
    exact ⟨ds, fun none => nonempty (by rw [none]; rfl), rfl⟩
  · rintro ⟨ds, nonempty, rfl⟩
    exact ⟨fun none => nonempty (List.map_eq_nil_iff.mp none), fun _ => isDigit_of_mem_row⟩

theorem digitsValue_concat : digitsValue (cs ++ [c]) = 10 * digitsValue cs + (c.toNat - '0'.toNat) := by
  rw [digitsValue, List.foldl_append]
  rfl

theorem digitsValue_row : digitsValue (row ds) = rowValue ds := by
  induction ds using List.reverseRecOn with
  | nil => rfl
  | append_singleton ds d ih =>
    have read : d.val.digitChar.toNat - '0'.toNat = d.val := by
      rw [Nat.toNat_digitChar_of_lt_ten d.isLt]
      exact Nat.add_sub_cancel_left ..
    have split : row (ds ++ [d]) = row ds ++ [d.val.digitChar] := List.map_append ..
    rw [split, digitsValue_concat, ih, read, rowValue, rowValue, List.map_append, List.reverse_append,
      List.map_singleton, List.reverse_singleton, List.singleton_append, Nat.ofDigits_cons, Nat.add_comm]

theorem numeral?_eq_some_iff : numeral? cs = some k ↔ ∃ ds, ds ≠ [] ∧ cs = row ds ∧ rowValue ds = k := by
  rw [numeral?, Option.ite_none_right_eq_some, isNumeral_iff, Option.some.injEq]
  constructor
  · rintro ⟨⟨ds, nonempty, rfl⟩, value⟩
    exact ⟨ds, nonempty, rfl, digitsValue_row ▸ value⟩
  · rintro ⟨ds, nonempty, rfl, rfl⟩
    exact ⟨⟨ds, nonempty, rfl⟩, digitsValue_row⟩

theorem numeral?_row (nonempty : ds ≠ []) : numeral? (row ds) = some (rowValue ds) :=
  numeral?_eq_some_iff.mpr ⟨ds, nonempty, rfl, rfl⟩

theorem Writes.integer?_eq (writes : Writes token n) : integer? token = some n := by
  cases writes with
  | plain nonempty =>
    rw [integer?, String.toList_ofList]
    split
    · rename_i signed
      exact absurd ((List.append_nil _).trans signed) (row_append_ne_cons nonempty rfl)
    · rename_i signed
      exact absurd ((List.append_nil _).trans signed) (row_append_ne_cons nonempty rfl)
    · rw [numeral?_row nonempty]
      rfl
  | plus nonempty | minus nonempty =>
    rw [integer?, String.toList_ofList]
    simp only [numeral?_row nonempty]
    rfl

theorem writes_of_integer? (read : integer? token = some n) : Writes token n := by
  rw [← String.ofList_toList (s := token)]
  rw [integer?] at read
  split at read
  · rename_i cs same
    cases numeral : numeral? cs with
    | none =>
      rw [numeral] at read
      cases read
    | some k =>
      rw [numeral] at read
      cases read
      obtain ⟨ds, nonempty, rfl, rfl⟩ := numeral?_eq_some_iff.mp numeral
      rw [same]
      exact .minus nonempty
  · rename_i cs same
    obtain ⟨k, numeral, rfl⟩ := Option.map_eq_some_iff.mp read
    obtain ⟨ds, nonempty, rfl, rfl⟩ := numeral?_eq_some_iff.mp numeral
    rw [same]
    exact .plus nonempty
  · obtain ⟨k, numeral, rfl⟩ := Option.map_eq_some_iff.mp read
    obtain ⟨ds, nonempty, same, rfl⟩ := numeral?_eq_some_iff.mp numeral
    rw [same]
    exact .plain nonempty

/-- Whole numbers are read just as they are written. -/
theorem integer?_eq_some_iff : integer? token = some n ↔ Writes token n := ⟨writes_of_integer?, Writes.integer?_eq⟩

/-- Every whole number can be written. -/
theorem exists_writes (n : Int) : ∃ token, Writes token n := by
  have natural (k : Nat) : ∃ ds, ds ≠ [] ∧ rowValue ds = k := by
    have numeral : numeral? (Nat.toDigits 10 k) = some k := by
      have digits : isNumeral (Nat.toDigits 10 k) = true := by
        rw [isNumeral, Bool.and_eq_true, Bool.not_eq_true', List.isEmpty_eq_false_iff, List.all_eq_true]
        exact ⟨Nat.toDigits_ne_nil, fun _ => Nat.isDigit_of_mem_toDigits (by decide) le_rfl⟩
      rw [numeral?, if_pos digits]
      exact congrArg some (Nat.ofDigitChars_toDigits (by decide) le_rfl)
    obtain ⟨ds, nonempty, _, value⟩ := numeral?_eq_some_iff.mp numeral
    exact ⟨ds, nonempty, value⟩
  obtain ⟨ds, nonempty, value⟩ := natural n.natAbs
  rcases Int.natAbs_eq n with same | same
  · rw [same, ← value]
    exact ⟨_, .plain nonempty⟩
  · rw [same, ← value]
    exact ⟨_, .minus nonempty⟩

end ChatCommands.Text
