import ChatCommands.Text.Blank
import Mathlib.Data.List.Basic

namespace ChatCommands.Text

/-- What a text is cut into: something with no blank in it. -/
def IsWord (w : String) : Prop := w ≠ "" ∧ hasBlank w = false

theorem pieces_ne_nil (cs : List Char) : pieces cs ≠ [] := by
  cases cs with
  | nil => simp [pieces]
  | cons c cs =>
    simp only [pieces]
    split
    · simp
    · split <;> simp

theorem pieces_append_blank {b : Char} (blank : isBlank b = true) (front back : List Char) :
    pieces (front ++ b :: back) = pieces front ++ pieces back := by
  induction front with
  | nil => simp [pieces, blank]
  | cons c front ih =>
    rw [List.cons_append, pieces, pieces, ih]
    by_cases gap : isBlank c = true
    · rw [if_pos gap, if_pos gap, List.cons_append]
    · rw [if_neg gap, if_neg gap]
      cases first : pieces front with
      | nil => exact absurd first (pieces_ne_nil front)
      | cons word rest => rfl

theorem pieces_solid {cs : List Char} (solid : ∀ c ∈ cs, isBlank c = false) : pieces cs = [cs] := by
  induction cs with
  | nil => rfl
  | cons c cs ih =>
    rw [pieces, ih fun d member => solid d (List.mem_cons_of_mem _ member), solid c (List.mem_cons_self ..)]
    rfl

theorem solid_of_mem_pieces {cs piece : List Char} (member : piece ∈ pieces cs) :
    ∀ c ∈ piece, isBlank c = false := by
  induction cs generalizing piece with
  | nil =>
    rw [pieces, List.mem_singleton] at member
    simp [member]
  | cons c cs ih =>
    rw [pieces] at member
    split at member
    · rcases List.mem_cons.mp member with rfl | later
      · simp
      · exact ih later
    · rename_i solid
      cases pieces_cs : pieces cs with
      | nil => exact absurd pieces_cs (pieces_ne_nil cs)
      | cons word rest =>
        rw [pieces_cs] at member ih
        rcases List.mem_cons.mp member with rfl | later
        · have first := ih (List.mem_cons_self ..)
          intro d within
          rcases List.mem_cons.mp within with rfl | inner
          · simpa using solid
          · exact first d inner
        · exact ih (List.mem_cons_of_mem _ later)

theorem hasBlank_eq_false_iff {s : String} : hasBlank s = false ↔ ∀ c ∈ s.toList, isBlank c = false := by
  simp [hasBlank]

theorem isWord_of_mem_words {s w : String} (member : w ∈ words s) : IsWord w := by
  obtain ⟨piece, kept, rfl⟩ := List.mem_map.mp member
  obtain ⟨inPieces, some⟩ := List.mem_filter.mp kept
  refine ⟨?_, ?_⟩
  · intro empty
    rw [← String.toList_eq_nil_iff, String.toList_ofList] at empty
    simp [empty] at some
  · rw [hasBlank_eq_false_iff, String.toList_ofList]
    exact solid_of_mem_pieces inPieces

theorem IsWord.words_eq {w : String} (word : IsWord w) : words w = [w] := by
  have some : w.toList ≠ [] := fun empty => word.1 (String.toList_eq_nil_iff.mp empty)
  rw [words, pieces_solid (hasBlank_eq_false_iff.mp word.2)]
  simp [some]

@[simp] theorem words_empty : words "" = [] := rfl

/-- A blank between two texts keeps their words apart. -/
theorem words_append_space (s t : String) : words (s ++ " " ++ t) = words s ++ words t := by
  have split : (s ++ " " ++ t).toList = s.toList ++ ' ' :: t.toList := by simp [String.toList_append]
  rw [words, split, pieces_append_blank (by decide), List.filter_append, List.map_append]
  rfl

theorem words_intercalate {ts : List String} (each : ∀ t ∈ ts, IsWord t) : words (" ".intercalate ts) = ts := by
  induction ts with
  | nil => simp
  | cons t ts ih =>
    have first := (each t (List.mem_cons_self ..)).words_eq
    have rest := ih fun u member => each u (List.mem_cons_of_mem _ member)
    cases ts with
    | nil => rw [String.intercalate_singleton, first]
    | cons u us => rw [String.intercalate_cons_cons, words_append_space, first, rest]; rfl

theorem words_blank_cons {b : Char} (blank : isBlank b = true) (cs : List Char) :
    words (String.ofList (b :: cs)) = words (String.ofList cs) := by
  simp [words, pieces, blank]

theorem words_trimStart (cs : List Char) : words (String.ofList (trimStart cs)) = words (String.ofList cs) := by
  induction cs with
  | nil => rfl
  | cons c cs ih =>
    by_cases blank : isBlank c = true
    · rw [words_blank_cons blank, ← ih, trimStart, List.dropWhile_cons_of_pos blank]
      rfl
    · rw [trimStart, List.dropWhile_cons_of_neg blank]

theorem words_append_blanks {blanks : List Char} (blank : ∀ b ∈ blanks, isBlank b = true) (cs : List Char) :
    words (String.ofList (cs ++ blanks)) = words (String.ofList cs) := by
  induction blanks generalizing cs with
  | nil => rw [List.append_nil]
  | cons b rest ih =>
    obtain ⟨first, later⟩ := List.forall_mem_cons.mp blank
    have none : words (String.ofList rest) = [] := ih later []
    rw [words, String.toList_ofList, pieces_append_blank first, List.filter_append, List.map_append]
    rw [words, String.toList_ofList] at none
    rw [none, List.append_nil, words, String.toList_ofList]

theorem words_trim (s : String) : words (trim s) = words s := by
  have ends : trimStart s.toList = trimEnd (trimStart s.toList) ++
      ((trimStart s.toList).reverse.takeWhile isBlank).reverse := by
    rw [trimEnd, ← List.reverse_append, List.takeWhile_append_dropWhile, List.reverse_reverse]
  have blank : ∀ b ∈ ((trimStart s.toList).reverse.takeWhile isBlank).reverse, isBlank b = true :=
    fun b member => List.all_eq_true.mp List.all_takeWhile b (List.mem_reverse.mp member)
  rw [trim, ← words_append_blanks blank, ← ends, words_trimStart, String.ofList_toList]

theorem exists_word_prefix (cs : List Char) :
    ∃ front back, cs = front ++ back ∧ (∀ c ∈ front, isBlank c = false) ∧
      (back = [] ∨ ∃ b rest, back = b :: rest ∧ isBlank b = true) := by
  induction cs with
  | nil => exact ⟨[], [], rfl, by simp, Or.inl rfl⟩
  | cons c cs ih =>
    by_cases blank : isBlank c = true
    · exact ⟨[], c :: cs, rfl, by simp, Or.inr ⟨c, cs, rfl, blank⟩⟩
    · obtain ⟨front, back, rfl, solid, stop⟩ := ih
      exact ⟨c :: front, back, rfl, List.forall_mem_cons.mpr ⟨Bool.eq_false_iff.mpr blank, solid⟩, stop⟩

/-- A text that does not begin with a blank begins with its first word. -/
theorem words_of_solid_cons {c : Char} (solid : isBlank c = false) (cs : List Char) :
    ∃ word back, c :: cs = word ++ back ∧
      words (String.ofList (c :: cs)) = String.ofList word :: words (String.ofList back) := by
  obtain ⟨front, back, whole, within, stop⟩ := exists_word_prefix (c :: cs)
  have some : front ≠ [] := by
    rintro rfl
    rcases stop with rfl | ⟨b, rest, rfl, blank⟩
    · cases whole
    · cases whole
      rw [solid] at blank
      cases blank
  refine ⟨front, back, whole, ?_⟩
  rw [whole]
  rcases stop with rfl | ⟨b, rest, rfl, blank⟩
  · simp [words, pieces_solid within, some, pieces]
  · rw [words_blank_cons blank, words, String.toList_ofList, pieces_append_blank blank, pieces_solid within]
    simp [words, some]

/-- Cutting a text after its first word loses none of the others: what is left is cut into words on its
own, and yields the rest of them. -/
theorem cut?_cases (s : String) :
    (words s = [] ∧ cut? s = none) ∨
      ∃ head remaining, words s = head :: words remaining ∧ cut? s = some (head, remaining) := by
  have same : words (String.ofList (trimStart s.toList)) = words s := by
    rw [words_trimStart, String.ofList_toList]
  have start : ∀ c cs, trimStart s.toList = c :: cs → isBlank c = false := by
    intro c cs trimmed
    have stop := List.head?_dropWhile_not isBlank s.toList
    rw [← trimStart, trimmed] at stop
    simpa using stop
  simp only [cut?]
  cases trimmed : trimStart s.toList with
  | nil =>
    rw [trimmed] at same
    exact Or.inl ⟨same.symm, by simp [words, pieces]⟩
  | cons c cs =>
    obtain ⟨word, back, whole, found⟩ := words_of_solid_cons (start c cs trimmed) cs
    rw [trimmed, found] at same
    refine Or.inr ⟨String.ofList word, String.ofList back, same.symm, ?_⟩
    rw [found, List.head?_cons, Option.map_some, String.length_ofList, whole, List.drop_left]

theorem words_of_cut? {s head remaining : String} (cut : cut? s = some (head, remaining)) :
    words s = head :: words remaining := by
  rcases cut?_cases s with ⟨_, none⟩ | ⟨head', remaining', split, found⟩
  · rw [none] at cut
    cases cut
  · rw [found] at cut
    cases cut
    exact split

theorem afterChars_eq_some {lead cs rest : List Char} : afterChars lead cs = some rest ↔ cs = lead ++ rest := by
  induction lead generalizing cs with
  | nil => simp [afterChars]
  | cons p ps ih =>
    cases cs with
    | nil => simp [afterChars]
    | cons c cs =>
      by_cases same : p = c
      · simp [afterChars, same, ih]
      · simp [afterChars, same, Ne.symm same]

theorem after?_eq_some {lead s text : String} : after? lead s = some text ↔ s = lead ++ text := by
  rw [after?, Option.map_eq_some_iff]
  constructor
  · rintro ⟨rest, found, rfl⟩
    apply String.toList_inj.mp
    rw [afterChars_eq_some.mp found, String.toList_append, String.toList_ofList]
  · rintro rfl
    exact ⟨text.toList, afterChars_eq_some.mpr String.toList_append, String.ofList_toList⟩

end ChatCommands.Text
