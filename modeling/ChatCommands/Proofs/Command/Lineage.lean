import Mathlib.Data.List.Forall2
import ChatCommands.Proofs.Command.WellFormed

namespace ChatCommands.Command

variable {α : Type} {tops : List (Command α)}

/-- The commands of the trees `tops`, each with the commands above it, from the top down. -/
inductive Lineage (tops : List (Command α)) : List (Command α) → Command α → Prop
  | top {c} : c ∈ tops → Lineage tops [] c
  | child {above b c} : Lineage tops above b → c ∈ b.children → Lineage tops (above ++ [b]) c

theorem Lineage.append {later above : List (Command α)} {c : Command α}
    (reach : Lineage (tops ++ later) above c) : Lineage tops above c ∨ Lineage later above c := by
  induction reach with
  | top member => exact (List.mem_append.mp member).imp .top .top
  | child _ member ih => exact ih.imp (.child · member) (.child · member)

/-- Either a command stands at the top, or right below the last of the commands above it. -/
theorem Lineage.cases_above {above : List (Command α)} {c : Command α} (reach : Lineage tops above c) :
    (above = [] ∧ c ∈ tops) ∨ ∃ before b, above = before ++ [b] ∧ Lineage tops before b ∧ c ∈ b.children := by
  cases reach with
  | top member => exact .inl ⟨rfl, member⟩
  | child reach member => exact .inr ⟨_, _, rfl, reach, member⟩

theorem WellFormed.child {parent? : Option String} {b c : Command α} (formed : b.WellFormed parent?)
    (member : c ∈ b.children) : c.WellFormed (some b.fullName) := by
  cases formed with
  | branch _ _ _ below => exact below c member
  | leaf => cases member

theorem WellFormed.distinct {parent? : Option String} {b : Command α} (formed : b.WellFormed parent?) :
    Distinct b.children := by
  cases formed with
  | branch _ _ distinct => exact distinct
  | leaf => exact distinct_nil

/-- The parent that is stored in a command is the command above it. -/
theorem Lineage.formed (sound : ∀ c ∈ tops, c.WellFormed none) {above : List (Command α)} {c : Command α}
    (reach : Lineage tops above c) : c.WellFormed (above.getLast?.map fullName) := by
  induction reach with
  | top member => exact sound _ member
  | child _ member ih =>
    rw [List.getLast?_concat]
    exact ih.child member

theorem words_fullName {parent? : Option String} {c : Command α} (formed : c.WellFormed parent?) :
    Text.words c.fullName = (parent?.map Text.words).getD [] ++ [c.name] := by
  have split := Name.words_under c.profile.parent? formed.normal.word
  rw [formed.fits.placed] at split
  rw [fullName, Profile.fullName, formed.fits.placed]
  exact split

/-- A full name is the names on the way down, in order. -/
theorem Lineage.words_fullName (sound : ∀ c ∈ tops, c.WellFormed none) {above : List (Command α)}
    {c : Command α} (reach : Lineage tops above c) :
    Text.words c.fullName = (above ++ [c]).map name := by
  induction reach with
  | top member => exact Command.words_fullName (sound _ member)
  | @child above b c reach member ih =>
    rw [Command.words_fullName ((reach.formed sound).child member), List.map_append]
    exact congrArg (· ++ [c.name]) ih

/-- The tokens that name a list of commands one by one, in any letter case. -/
def Answer (chain : List (Command α)) (tokens : List String) : Prop :=
  List.Forall₂ (fun c token => c.answersTo (Text.lower token) = true) chain tokens

theorem answer_concat_iff {chain : List (Command α)} {c : Command α} {tokens : List String} :
    Answer (chain ++ [c]) tokens ↔ ∃ before token, tokens = before ++ [token] ∧ Answer chain before ∧
      c.answersTo (Text.lower token) = true := by
  induction chain generalizing tokens with
  | nil =>
    simp only [Answer, List.nil_append, List.forall₂_cons_left_iff, List.forall₂_nil_left_iff]
    constructor
    · rintro ⟨token, rest, named, rfl, rfl⟩
      exact ⟨[], token, rfl, rfl, named⟩
    · rintro ⟨_, token, rfl, rfl, named⟩
      exact ⟨token, [], named, rfl, rfl⟩
  | cons b chain ih =>
    simp only [Answer, List.cons_append, List.forall₂_cons_left_iff]
    constructor
    · rintro ⟨first, rest, named, answer, rfl⟩
      obtain ⟨before, token, rfl, inner, last⟩ := ih.mp answer
      exact ⟨first :: before, token, rfl, ⟨first, before, named, inner, rfl⟩, last⟩
    · rintro ⟨_, token, rfl, ⟨first, before, named, inner, rfl⟩, last⟩
      exact ⟨first, before ++ [token], named, ih.mpr ⟨before, token, rfl, inner, last⟩, rfl⟩

theorem answer_concat_common {chain chain' : List (Command α)} {c c' : Command α} {tokens : List String}
    (answer : Answer (chain ++ [c]) tokens) (answer' : Answer (chain' ++ [c']) tokens) :
    ∃ before name, Answer chain before ∧ Answer chain' before ∧ name ∈ c.names ∧ name ∈ c'.names := by
  obtain ⟨before, token, rfl, inner, named⟩ := answer_concat_iff.mp answer
  obtain ⟨before', token', same, inner', named'⟩ := answer_concat_iff.mp answer'
  obtain ⟨rfl, last⟩ := List.append_inj' same rfl
  cases last
  exact ⟨before, Text.lower token, inner, inner', answersTo_iff.mp named, answersTo_iff.mp named'⟩

/-- No two commands answer to the same tokens, and each stands in one place only. -/
theorem Lineage.eq_of_answer (distinct : Distinct tops) (sound : ∀ c ∈ tops, c.WellFormed none)
    {above : List (Command α)} {c : Command α} (reach : Lineage tops above c) {above' : List (Command α)}
    {c' : Command α} (reach' : Lineage tops above' c') {tokens : List String}
    (answer : Answer (above ++ [c]) tokens) (answer' : Answer (above' ++ [c']) tokens) :
    above = above' ∧ c = c' := by
  induction reach generalizing above' c' tokens with
  | @top c member =>
    obtain ⟨before, name, inner, inner', named, named'⟩ := answer_concat_common answer answer'
    cases inner
    cases inner'
    rcases reach'.cases_above with ⟨_, member'⟩ | ⟨_, _, shape, _⟩
    · exact ⟨rfl, distinct.eq_of_shared member member' named named'⟩
    · simp at shape
  | @child above b c reach member ih =>
    obtain ⟨before, name, inner, inner', named, named'⟩ := answer_concat_common answer answer'
    rcases reach'.cases_above with ⟨rfl, _⟩ | ⟨above', b', rfl, reach', member'⟩
    · cases inner'
      have shape := List.forall₂_nil_right_iff.mp inner
      simp at shape
    · obtain ⟨rfl, rfl⟩ := ih reach' inner inner'
      have siblings := (reach.formed sound).distinct
      exact ⟨rfl, siblings.eq_of_shared member member' named named'⟩

theorem Lineage.answer_names (sound : ∀ c ∈ tops, c.WellFormed none) {above : List (Command α)}
    {c : Command α} (reach : Lineage tops above c) : Answer (above ++ [c]) ((above ++ [c]).map name) := by
  induction reach with
  | top member => exact .cons (sound _ member).answersTo_name .nil
  | @child above b c reach member ih =>
    have formed := (reach.formed sound).child member
    exact answer_concat_iff.mpr ⟨_, c.name, List.map_append, ih, formed.answersTo_name⟩

/-- A command stands in one place only. -/
theorem Lineage.unique (distinct : Distinct tops) (sound : ∀ c ∈ tops, c.WellFormed none)
    {above above' : List (Command α)} {c : Command α} (reach : Lineage tops above c)
    (reach' : Lineage tops above' c) : above = above' := by
  have answer := reach.answer_names sound
  have answer' := reach'.answer_names sound
  rw [← reach.words_fullName sound] at answer
  rw [← reach'.words_fullName sound] at answer'
  exact (reach.eq_of_answer distinct sound reach' answer answer').1

/-- No two commands have the same full name. -/
theorem Lineage.eq_of_fullName (distinct : Distinct tops) (sound : ∀ c ∈ tops, c.WellFormed none)
    {above above' : List (Command α)} {c c' : Command α} (reach : Lineage tops above c)
    (reach' : Lineage tops above' c') (same : c.fullName = c'.fullName) : c = c' := by
  have answer := reach.answer_names sound
  have answer' := reach'.answer_names sound
  rw [← reach.words_fullName sound, same] at answer
  rw [← reach'.words_fullName sound] at answer'
  exact (reach.eq_of_answer distinct sound reach' answer answer').2

end ChatCommands.Command
