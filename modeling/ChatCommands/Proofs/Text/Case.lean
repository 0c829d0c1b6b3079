import ChatCommands.Proofs.Text.Words
import ChatCommands.Text.Case

namespace ChatCommands.Text

theorem toNat_ofNat {n : Nat} (valid : n.isValidChar) : (Char.ofNat n).toNat = n := by
  rw [Char.ofNat, dif_pos valid]
  rfl

/-- Lowercase within ASCII: a capital letter moves up by 32, and nothing else moves. -/
theorem toLower_cases (c : Char) :
    c.toLower = c ∨ 0x41 ≤ c.toNat ∧ c.toNat ≤ 0x5a ∧ c.toLower.toNat = c.toNat + 0x20 := by
  unfold Char.toLower
  split
  · rename_i capital
    have least : 0x41 ≤ c.toNat := capital.1
    have greatest : c.toNat ≤ 0x5a := capital.2
    refine Or.inr ⟨least, greatest, ?_⟩
    exact Nat.mod_eq_of_lt (show c.toNat + 0x20 < 4294967296 by omega)
  · exact Or.inl rfl

theorem toLower_toLower (c : Char) : c.toLower.toLower = c.toLower := by
  rcases toLower_cases c with same | ⟨least, _, code⟩
  · exact congrArg Char.toLower same
  · rcases toLower_cases c.toLower with same | ⟨_, greatest, _⟩
    · exact same
    · omega

namespace CaseRow

/-- The least code point that a row moves to. -/
def low (row : CaseRow) : Nat := (row.first + row.shift).toNat

def high (row : CaseRow) : Nat := (row.last + row.shift).toNat

/-- Holds when a code point that `row` moves may come to lie on one that `other` lists. Two rows that
list every second code point keep out of each other's way when they begin on different parities. -/
def meets (row other : CaseRow) : Bool :=
  row.low ≤ other.last && (other.first ≤ row.high &&
    !((row.step == 2 || row.first == row.last) && other.step == 2 && (row.low + other.first) % 2 == 1))

/-- Holds when no code point that `row` moves comes to lie in a range. -/
def clears (row : CaseRow) (range : Nat × Nat) : Bool := row.high < range.1 || range.2 < row.low

end CaseRow

/-- The blanks, by code points. -/
def blankRanges : List (Nat × Nat) :=
  [(0x9, 0xd), (0x20, 0x20), (0x85, 0x85), (0xa0, 0xa0), (0x1680, 0x1680), (0x2000, 0x200a),
   (0x2028, 0x2028), (0x2029, 0x2029), (0x202f, 0x202f), (0x205f, 0x205f), (0x3000, 0x3000)]

/-- Where no lowercase letter may lie: at `İ`, or among the numbers that are no characters. -/
def barredRanges : List (Nat × Nat) := [(0x130, 0x130), (0xd800, 0xdfff)]

theorem isBlank_eq (c : Char) : isBlank c = inRanges blankRanges c.toNat := by
  rw [Bool.eq_iff_iff]
  simp only [isBlank, inRanges, blankRanges, List.any_cons, List.any_nil, Bool.or_eq_true, Bool.and_eq_true,
    decide_eq_true_eq, beq_iff_eq, Bool.or_false]
  omega

/-- The rows in blocks of neighbours, so that most of them can be passed over without being looked at. -/
def lowerBlocks : List (List CaseRow) := (List.range 14).map fun i => (lowerRows.drop (14 * i)).take 14

/-- The code points from the first of a block to its last. -/
def blockSpan (block : List CaseRow) : Nat × Nat :=
  ((block.head?.map (·.first)).getD 0, (block.getLast?.map (·.last)).getD 0)

/-- The blocks are all the rows, each within its span, and keep out of the way of what the rows move. -/
theorem lowerBlocks_sound : lowerBlocks.flatten = lowerRows ∧
    (lowerBlocks.all fun block => block.all fun row =>
      (blockSpan block).1 ≤ row.first && row.last ≤ (blockSpan block).2) = true ∧
    (lowerRows.all fun row => lowerBlocks.all fun block =>
      row.clears (blockSpan block) || block.all fun other => !row.meets other) = true := by
  decide +kernel

theorem lowerRows_apart {row other : CaseRow} (member : row ∈ lowerRows) (listed : other ∈ lowerRows) :
    row.meets other = false := by
  obtain ⟨flatten, spans, keepApart⟩ := lowerBlocks_sound
  rw [← flatten, List.mem_flatten] at listed
  obtain ⟨block, inBlocks, inBlock⟩ := listed
  have span := List.all_eq_true.mp (List.all_eq_true.mp spans block inBlocks) other inBlock
  have apart := List.all_eq_true.mp (List.all_eq_true.mp keepApart row member) block inBlocks
  simp only [Bool.and_eq_true, decide_eq_true_eq] at span
  rcases Bool.or_eq_true_iff.mp apart with clear | each
  · simp only [CaseRow.clears, Bool.or_eq_true, decide_eq_true_eq] at clear
    simp only [CaseRow.meets, Bool.and_eq_false_iff, decide_eq_false_iff_not]
    omega
  · simpa using List.all_eq_true.mp each other inBlock

/-- A row moves letters to characters, none of them blank. -/
theorem lowerRows_sound : ∀ row ∈ lowerRows,
    ((row.low : Int) = row.first + row.shift ∧ row.high < 0x110000 ∧ (row.step = 1 ∨ row.step = 2)) ∧
      ∀ range ∈ blankRanges ++ barredRanges, row.clears range = true := by
  decide +kernel

/-- No row lists the letters that lowercase writes by a rule of its own. -/
theorem lowerRows_free : ∀ n ∈ [0x69, 0x307, 0x3c2, 0x3c3], ∀ row ∈ lowerRows, row.covers n = false := by
  decide +kernel

theorem capitals_mem : ⟨0x41, 0x5a, 1, 32⟩ ∈ lowerRows ∧ ⟨0x3a3, 0x3ab, 1, 32⟩ ∈ lowerRows := by
  decide +kernel

theorem CaseRow.covers_iff {row : CaseRow} {n : Nat} :
    row.covers n = true ↔ row.first ≤ n ∧ n ≤ row.last ∧ (n - row.first) % row.step = 0 := by
  simp [covers, and_assoc]

/-- What a row does to a code point that it lists. -/
theorem CaseRow.bounds {row : CaseRow} (member : row ∈ lowerRows) {n : Nat} (covered : row.covers n = true) :
    ((n + row.shift).toNat : Int) = n + row.shift ∧ row.low ≤ (n + row.shift).toNat ∧
      (n + row.shift).toNat ≤ row.high := by
  obtain ⟨⟨start, _, _⟩, _⟩ := lowerRows_sound row member
  obtain ⟨lower, upper, _⟩ := covers_iff.mp covered
  simp only [low, high] at *
  omega

theorem CaseRow.outside {row : CaseRow} (member : row ∈ lowerRows) {n : Nat} (covered : row.covers n = true)
    {range : Nat × Nat} (listed : range ∈ blankRanges ++ barredRanges) :
    (n + row.shift).toNat < range.1 ∨ range.2 < (n + row.shift).toNat := by
  have clear := (lowerRows_sound row member).2 range listed
  obtain ⟨_, lower, upper⟩ := bounds member covered
  simp only [clears, Bool.or_eq_true, decide_eq_true_eq] at clear
  omega

/-- No row lists a code point that a row moved another one to. -/
theorem CaseRow.uncovered {row : CaseRow} (member : row ∈ lowerRows) {n : Nat} (covered : row.covers n = true)
    {other : CaseRow} (listed : other ∈ lowerRows) : other.covers (n + row.shift).toNat = false := by
  have apart := lowerRows_apart member listed
  obtain ⟨image, lower, upper⟩ := bounds member covered
  obtain ⟨⟨start, _, steps⟩, _⟩ := lowerRows_sound row member
  obtain ⟨begins, ends, step⟩ := covers_iff.mp covered
  rw [Bool.eq_false_iff]
  intro moved
  obtain ⟨first, last, stride⟩ := covers_iff.mp moved
  have near : row.low ≤ other.last ∧ other.first ≤ row.high := by omega
  simp only [meets, near, decide_true, Bool.true_and, Bool.not_eq_false', Bool.and_eq_true, Bool.or_eq_true,
    beq_iff_eq] at apart
  obtain ⟨⟨even, two⟩, parity⟩ := apart
  rw [two] at stride
  have same : (n + row.shift).toNat % 2 = row.low % 2 := by
    rcases even with even | single
    · rw [even] at step
      omega
    · omega
  omega

theorem shifted_eq (n : Nat) :
    (∃ row ∈ lowerRows, row.covers n = true ∧ shifted lowerRows n = (n + row.shift).toNat) ∨
      (∀ row ∈ lowerRows, row.covers n = false) ∧ shifted lowerRows n = n := by
  cases found : lowerRows.find? (·.covers n) with
  | some row =>
    refine Or.inl ⟨row, List.mem_of_find?_eq_some found, ?_, by simp [shifted, found]⟩
    simpa using List.find?_some found
  | none => exact Or.inr ⟨by simpa using List.find?_eq_none.mp found, by simp [shifted, found]⟩

/-- Holds of a character that lowercase leaves alone wherever it stands. -/
def IsLower (c : Char) : Prop := c ≠ 'Σ' ∧ lowerChar c = [c]

theorem IsLower.of_uncovered {n : Nat} (valid : n.isValidChar)
    (free : ∀ row ∈ lowerRows, row.covers n = false) (dotted : n ≠ 0x130) : IsLower (Char.ofNat n) := by
  have code : (Char.ofNat n).toNat = n := toNat_ofNat valid
  have keeps {row : CaseRow} (member : row ∈ lowerRows) (covered : row.covers n = true) : False := by
    rw [free row member] at covered
    exact Bool.noConfusion covered
  refine ⟨?_, ?_⟩
  · intro sigma
    have same : n = 0x3a3 := by rw [← code, sigma]; rfl
    exact keeps capitals_mem.2 (by rw [same]; rfl)
  · rw [lowerChar, code]
    split
    · rename_i ascii
      rcases toLower_cases (Char.ofNat n) with same | ⟨least, greatest, _⟩
      · rw [same]
      · rw [code] at least greatest
        exact (keeps capitals_mem.1 (CaseRow.covers_iff.mpr ⟨least, greatest, Nat.mod_one _⟩)).elim
    · rw [if_neg]
      · rcases shifted_eq n with ⟨row, member, covered, _⟩ | ⟨_, same⟩
        · exact (keeps member covered).elim
        · rw [same]
      · intro same
        exact dotted (by rw [← code, same]; rfl)

/-- The letter that a row moves another one to. -/
theorem IsLower.of_covered {row : CaseRow} (member : row ∈ lowerRows) {n : Nat} (covered : row.covers n = true) :
    (n + row.shift).toNat.isValidChar ∧ IsLower (Char.ofNat (n + row.shift).toNat) := by
  have barred : ∀ range ∈ barredRanges, range ∈ blankRanges ++ barredRanges := by decide
  have dotted := CaseRow.outside member covered (barred (0x130, 0x130) (by decide))
  have surrogate := CaseRow.outside member covered (barred (0xd800, 0xdfff) (by decide))
  obtain ⟨_, _, upper⟩ := CaseRow.bounds member covered
  obtain ⟨⟨_, below, _⟩, _⟩ := lowerRows_sound row member
  have valid : (n + row.shift).toNat.isValidChar := by
    simp only [Nat.isValidChar] at *
    omega
  refine ⟨valid, .of_uncovered valid (fun other listed => CaseRow.uncovered member covered listed) ?_⟩
  simp only at dotted
  omega

/-- What becomes of a letter that stands alone: an ASCII letter, `İ`, a letter in the table, or any other
character, which stays what it is. -/
theorem lowerChar_cases (c : Char) :
    (c.toNat < 0x80 ∧ lowerChar c = [c.toLower]) ∨ lowerChar c = ['i', '\u0307'] ∨
      (∃ row ∈ lowerRows, row.covers c.toNat = true ∧ lowerChar c = [Char.ofNat (c.toNat + row.shift).toNat]) ∨
      c.toNat ≠ 0x130 ∧ (∀ row ∈ lowerRows, row.covers c.toNat = false) ∧ lowerChar c = [c] := by
  unfold lowerChar
  split
  · rename_i ascii
    exact Or.inl ⟨ascii, rfl⟩
  · split
    · exact Or.inr (Or.inl rfl)
    · rename_i other
      have dotted : c.toNat ≠ 0x130 := fun same => other (by rw [← Char.ofNat_toNat c, same])
      rcases shifted_eq c.toNat with ⟨row, member, covered, moved⟩ | ⟨free, same⟩
      · exact Or.inr (Or.inr (Or.inl ⟨row, member, covered, by rw [moved]⟩))
      · exact Or.inr (Or.inr (Or.inr ⟨dotted, free, by rw [same, Char.ofNat_toNat]⟩))

theorem isLower_lowerChar {c d : Char} (plain : c ≠ 'Σ') (member : d ∈ lowerChar c) : IsLower d := by
  rcases lowerChar_cases c with ⟨ascii, moved⟩ | moved | ⟨row, listed, covered, moved⟩ | ⟨_, _, moved⟩ <;>
    rw [moved] at member
  · have small : c.toLower.toNat < 0x80 := by
      rcases toLower_cases c with same | ⟨_, _, code⟩
      · rw [same]; exact ascii
      · omega
    rw [List.mem_singleton.mp member]
    refine ⟨?_, by rw [lowerChar, if_pos small, toLower_toLower]⟩
    intro sigma
    rw [sigma] at small
    exact absurd small (by decide)
  · rcases (by simpa using member : d = 'i' ∨ d = '\u0307') with rfl | rfl
    · exact .of_uncovered (by decide) (lowerRows_free 0x69 (by decide)) (by decide)
    · exact .of_uncovered (by decide) (lowerRows_free 0x307 (by decide)) (by decide)
  · rw [List.mem_singleton.mp member]
    exact (IsLower.of_covered listed covered).2
  · rw [List.mem_singleton.mp member]
    exact ⟨plain, moved⟩

theorem isBlank_lowerChar {c d : Char} (solid : isBlank c = false) (member : d ∈ lowerChar c) :
    isBlank d = false := by
  rcases lowerChar_cases c with ⟨ascii, moved⟩ | moved | ⟨row, listed, covered, moved⟩ | ⟨_, _, moved⟩ <;>
    rw [moved] at member
  · rw [List.mem_singleton.mp member]
    rcases toLower_cases c with same | ⟨_, _, code⟩
    · rw [same]; exact solid
    · rw [isBlank_eq, inRanges, List.any_eq_false]
      simp only [blankRanges, List.forall_mem_cons, Bool.and_eq_true, decide_eq_true_eq, code]
      refine ⟨?_, ?_, ?_, ?_, ?_, ?_, ?_, ?_, ?_, ?_, ?_, by simp⟩ <;> omega
  · rcases (by simpa using member : d = 'i' ∨ d = '\u0307') with rfl | rfl <;> rfl
  · have valid := (IsLower.of_covered listed covered).1
    rw [List.mem_singleton.mp member, isBlank_eq, toNat_ofNat valid, inRanges, List.any_eq_false]
    intro range inRange
    have outside := CaseRow.outside listed covered (List.mem_append_left barredRanges inRange)
    simp only [Bool.and_eq_true, decide_eq_true_eq]
    omega
  · rw [List.mem_singleton.mp member]
    exact solid

theorem lowerChar_ne_nil (c : Char) : lowerChar c ≠ [] := by
  rcases lowerChar_cases c with ⟨_, moved⟩ | moved | ⟨_, _, _, moved⟩ | ⟨_, _, moved⟩ <;> simp [moved]

theorem lowerSigma_cases (before after : List Char) :
    lowerSigma before after = 'ς' ∨ lowerSigma before after = 'σ' := by
  unfold lowerSigma
  split
  · exact Or.inl rfl
  · exact Or.inr rfl

theorem isLower_lowerAfter {before cs : List Char} {d : Char} (member : d ∈ lowerAfter before cs) :
    IsLower d := by
  induction cs generalizing before with
  | nil => simp [lowerAfter] at member
  | cons c cs ih =>
    rcases List.mem_append.mp member with head | tail
    · split at head
      · rw [List.mem_singleton.mp head]
        rcases lowerSigma_cases before cs with final | inner
        · rw [final]
          exact .of_uncovered (by decide) (lowerRows_free 0x3c2 (by decide)) (by decide)
        · rw [inner]
          exact .of_uncovered (by decide) (lowerRows_free 0x3c3 (by decide)) (by decide)
      · rename_i plain
        exact isLower_lowerChar plain head
    · exact ih tail

theorem lowerAfter_eq_self {before cs : List Char} (lowered : ∀ c ∈ cs, IsLower c) :
    lowerAfter before cs = cs := by
  induction cs generalizing before with
  | nil => rfl
  | cons c cs ih =>
    obtain ⟨plain, same⟩ := lowered c (List.mem_cons_self ..)
    rw [lowerAfter, if_neg plain, same, ih fun d member => lowered d (List.mem_cons_of_mem _ member)]
    rfl

theorem isBlank_lowerAfter {before cs : List Char} (solid : ∀ c ∈ cs, isBlank c = false) {d : Char}
    (member : d ∈ lowerAfter before cs) : isBlank d = false := by
  induction cs generalizing before with
  | nil => simp [lowerAfter] at member
  | cons c cs ih =>
    rcases List.mem_append.mp member with head | tail
    · split at head
      · rw [List.mem_singleton.mp head]
        rcases lowerSigma_cases before cs with final | inner
        · rw [final]; rfl
        · rw [inner]; rfl
      · exact isBlank_lowerChar (solid c (List.mem_cons_self ..)) head
    · exact ih (fun d later => solid d (List.mem_cons_of_mem _ later)) tail

theorem isLower_of_mem_lower {s : String} {c : Char} (member : c ∈ (lower s).toList) : IsLower c := by
  rw [lower, String.toList_ofList] at member
  exact isLower_lowerAfter member

@[simp] theorem lower_lower (s : String) : lower (lower s) = lower s := by
  rw [lower, lowerAfter_eq_self fun _ => isLower_of_mem_lower, String.ofList_toList]

theorem hasBlank_lower {s : String} (solid : hasBlank s = false) : hasBlank (lower s) = false := by
  rw [hasBlank_eq_false_iff] at *
  intro c member
  rw [lower, String.toList_ofList] at member
  exact isBlank_lowerAfter solid member

theorem lower_ne_empty {s : String} (some : s ≠ "") : lower s ≠ "" := by
  intro empty
  rw [← String.toList_eq_nil_iff, lower, String.toList_ofList] at empty
  cases chars : s.toList with
  | nil => exact some (String.toList_eq_nil_iff.mp chars)
  | cons c cs =>
    rw [chars, lowerAfter, List.append_eq_nil_iff] at empty
    have first := empty.1
    split at first
    · simp at first
    · exact lowerChar_ne_nil c first

end ChatCommands.Text
