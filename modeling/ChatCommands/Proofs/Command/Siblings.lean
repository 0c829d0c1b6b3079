import Mathlib.Data.List.Nodup
import ChatCommands.Command

namespace ChatCommands

theorem repeated?_eq_none {seen names : List String} :
    repeated? seen names = none ↔ names.Nodup ∧ ∀ name ∈ names, name ∉ seen := by
  induction names generalizing seen with
  | nil => simp [repeated?]
  | cons name rest ih =>
    simp only [repeated?, List.contains_iff_mem, List.nodup_cons, List.forall_mem_cons]
    by_cases member : name ∈ seen
    · rw [if_pos member]
      exact ⟨fun none => (nomatch none), fun ⟨_, fresh, _⟩ => absurd member fresh⟩
    · rw [if_neg member, ih]
      constructor
      · rintro ⟨distinct, fresh⟩
        refine ⟨⟨fun again => fresh name again (List.mem_cons_self ..), distinct⟩, member, ?_⟩
        exact fun other later earlier => fresh other later (List.mem_cons_of_mem _ earlier)
      · rintro ⟨⟨once, distinct⟩, _, fresh⟩
        refine ⟨distinct, fun other later earlier => ?_⟩
        rcases List.mem_cons.mp earlier with rfl | earlier
        · exact once later
        · exact fresh other later earlier

namespace Command

variable {α : Type}

/-- All names and aliases of siblings are different, those of one command included. -/
def Distinct (siblings : List (Command α)) : Prop := (siblings.flatMap names).Nodup

theorem checkDistinct_eq_ok {scope : String} {siblings : List (Command α)} :
    checkDistinct scope siblings = .ok () ↔ Distinct siblings := by
  have scan : repeated? [] (siblings.flatMap names) = none ↔ Distinct siblings := by
    rw [repeated?_eq_none]
    exact ⟨fun ⟨distinct, _⟩ => distinct, fun distinct => ⟨distinct, fun _ _ => List.not_mem_nil⟩⟩
  rw [← scan, checkDistinct]
  cases repeated? [] (siblings.flatMap names) with
  | none => exact ⟨fun _ => rfl, fun _ => rfl⟩
  | some name => exact ⟨fun run => (nomatch run), fun none => (nomatch none)⟩

@[simp] theorem distinct_nil : Distinct ([] : List (Command α)) := List.nodup_nil

theorem distinct_cons {c : Command α} {siblings : List (Command α)} :
    Distinct (c :: siblings) ↔
      c.names.Nodup ∧ Distinct siblings ∧ ∀ name ∈ c.names, ∀ b ∈ siblings, name ∉ b.names := by
  simp only [Distinct, List.flatMap_cons, List.nodup_append, List.mem_flatMap]
  constructor
  · rintro ⟨own, rest, apart⟩
    exact ⟨own, rest, fun name member b sibling shared => apart name member name ⟨b, sibling, shared⟩ rfl⟩
  · rintro ⟨own, rest, apart⟩
    refine ⟨own, rest, fun name member other ⟨b, sibling, shared⟩ same => ?_⟩
    exact apart name member b sibling (same ▸ shared)

theorem Distinct.append {siblings : List (Command α)} {c : Command α} (distinct : Distinct siblings)
    (own : c.names.Nodup) (apart : ∀ name ∈ c.names, ∀ b ∈ siblings, name ∉ b.names) :
    Distinct (siblings ++ [c]) := by
  simp only [Distinct, List.flatMap_append, List.flatMap_cons, List.flatMap_nil, List.append_nil,
    List.nodup_append, List.mem_flatMap]
  refine ⟨distinct, own, fun name ⟨b, sibling, shared⟩ other member same => ?_⟩
  exact apart other member b sibling (same ▸ shared)

theorem Distinct.nodup {siblings : List (Command α)} (distinct : Distinct siblings) : siblings.Nodup := by
  induction siblings with
  | nil => exact List.nodup_nil
  | cons c rest ih =>
    obtain ⟨_, later, apart⟩ := distinct_cons.mp distinct
    refine List.nodup_cons.mpr ⟨fun again => ?_, ih later⟩
    have named : c.name ∈ c.names := List.mem_cons_self ..
    exact apart c.name named c again named

/-- Siblings that are told apart by their names are told apart by any one of them. -/
theorem Distinct.eq_of_shared {siblings : List (Command α)} (distinct : Distinct siblings) {a b : Command α}
    {name : String} (left : a ∈ siblings) (right : b ∈ siblings) (ofLeft : name ∈ a.names)
    (ofRight : name ∈ b.names) : a = b := by
  induction siblings with
  | nil => cases left
  | cons c rest ih =>
    obtain ⟨_, later, apart⟩ := distinct_cons.mp distinct
    rcases List.mem_cons.mp left with rfl | leftLater
    · rcases List.mem_cons.mp right with rfl | rightLater
      · rfl
      · exact absurd ofRight (apart name ofLeft b rightLater)
    · rcases List.mem_cons.mp right with rfl | rightLater
      · exact absurd ofLeft (apart name ofRight a leftLater)
      · exact ih later leftLater rightLater

theorem answersTo_iff {c : Command α} {token : String} : c.answersTo token = true ↔ token ∈ c.names :=
  List.contains_iff_mem

theorem mem_names_iff {c : Command α} {token : String} :
    token ∈ c.names ↔ c.name = token ∨ token ∈ c.profile.aliases := by
  simp [names, Profile.names, name, eq_comm]

theorem findLower?_mem {siblings : List (Command α)} {token : String} {c : Command α}
    (found : findLower? siblings token = some c) : c ∈ siblings ∧ token ∈ c.names := by
  rw [findLower?] at found
  cases byName : siblings.find? fun c => c.name == token with
  | some d =>
    rw [byName] at found
    cases found
    have named := List.find?_some byName
    exact ⟨List.mem_of_find?_eq_some byName, mem_names_iff.mpr (.inl (beq_iff_eq.mp named))⟩
  | none =>
    rw [byName] at found
    have aliased := List.find?_some found
    exact ⟨List.mem_of_find?_eq_some found, mem_names_iff.mpr (.inr (List.contains_iff_mem.mp aliased))⟩

theorem findLower?_isSome {siblings : List (Command α)} {token : String} {c : Command α}
    (member : c ∈ siblings) (named : token ∈ c.names) : ∃ d, findLower? siblings token = some d := by
  rw [findLower?]
  cases byName : siblings.find? fun c => c.name == token with
  | some d => exact ⟨d, rfl⟩
  | none =>
    have differs : c.name ≠ token := fun same =>
      List.find?_eq_none.mp byName c member (beq_iff_eq.mpr same)
    have aliased : token ∈ c.profile.aliases := (mem_names_iff.mp named).resolve_left differs
    cases byAlias : siblings.find? fun c => c.profile.aliases.contains token with
    | some d => exact ⟨d, rfl⟩
    | none => exact absurd (List.contains_iff_mem.mpr aliased) (List.find?_eq_none.mp byAlias c member)

/-- Among distinct siblings, whether a name or an alias is looked up first makes no difference: the
command found is the one that answers to the token. -/
theorem find?_eq_some {siblings : List (Command α)} (distinct : Distinct siblings) {token : String}
    {c : Command α} : find? siblings token = some c ↔ c ∈ siblings ∧ c.answersTo (Text.lower token) = true := by
  rw [answersTo_iff, find?]
  constructor
  · exact findLower?_mem
  · rintro ⟨member, named⟩
    obtain ⟨d, found⟩ := findLower?_isSome member named
    obtain ⟨sibling, shared⟩ := findLower?_mem found
    rw [found, distinct.eq_of_shared sibling member shared named]

theorem find?_eq_none {siblings : List (Command α)} {token : String} :
    find? siblings token = none ↔ ∀ c ∈ siblings, c.answersTo (Text.lower token) = false := by
  rw [find?]
  constructor
  · intro none c member
    rw [Bool.eq_false_iff, ne_eq, answersTo_iff]
    intro named
    obtain ⟨d, found⟩ := findLower?_isSome member named
    rw [none] at found
    cases found
  · intro silent
    cases found : findLower? siblings (Text.lower token) with
    | none => rfl
    | some d =>
      obtain ⟨member, named⟩ := findLower?_mem found
      have quiet := silent d member
      rw [answersTo_iff.mpr named] at quiet
      cases quiet

end Command

end ChatCommands
