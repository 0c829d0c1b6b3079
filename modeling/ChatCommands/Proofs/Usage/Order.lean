import Mathlib.Data.List.Induction
import ChatCommands.Proofs.Usage.Match

namespace ChatCommands.Usage

variable {before arguments : List Argument} {a : Argument}

/-- An argument breaks a rule behind those `before` it: one of these is multi, or one is optional and the
argument is not. -/
def Misplaced (before : List Argument) (a : Argument) : Prop :=
  (∃ b ∈ before, b.multi = true) ∨ a.isOptional = false ∧ ∃ b ∈ before, b.isOptional = true

/-- The last argument of a list, when that is multi. -/
def lastMulti? (before : List Argument) : Option Argument := before.getLast?.filter (·.multi)

/-- What is reported of a misplaced argument. -/
def fault (before : List Argument) (a : Argument) : DefinitionError :=
  match lastMulti? before with
  | some multi => .multiNotLast multi.name a.name
  | none => .optionalBeforeMandatory a.name

theorem legal_concat_iff : Legal ⟨before ++ [a]⟩ ↔ Legal ⟨before⟩ ∧ ¬Misplaced before a := by
  simp only [Legal, List.pairwise_append, List.mem_singleton, forall_eq, Misplaced]
  constructor
  · rintro ⟨legal, _, fits⟩
    refine ⟨legal, ?_⟩
    rintro (⟨b, member, multi⟩ | ⟨mandatory, b, member, optional⟩)
    · exact absurd ((fits b member).1.symm.trans multi) Bool.false_ne_true
    · exact absurd (mandatory.symm.trans ((fits b member).2 optional)) Bool.false_ne_true
  · rintro ⟨legal, placed⟩
    obtain ⟨narrow, ordered⟩ := not_or.mp placed
    refine ⟨legal, List.pairwise_singleton .., fun b member => ⟨?_, fun optional => ?_⟩⟩
    · exact Bool.eq_false_iff.mpr fun multi => narrow ⟨b, member, multi⟩
    · by_contra mandatory
      exact ordered ⟨Bool.eq_false_iff.mpr mandatory, b, member, optional⟩

/-- Wherever there is a multi argument in a legal list, it is the last one. -/
theorem Legal.getLast?_of_multi (legal : Legal ⟨arguments⟩) (member : a ∈ arguments) (multi : a.multi = true) :
    arguments.getLast? = some a := by
  rcases List.eq_nil_or_concat' arguments with rfl | ⟨before, last, rfl⟩
  · cases member
  · obtain ⟨_, placed⟩ := legal_concat_iff.mp legal
    rcases List.mem_append.mp member with earlier | final
    · exact absurd (.inl ⟨a, earlier, multi⟩) placed
    · rw [List.mem_singleton.mp final, List.getLast?_concat]

theorem Legal.lastMulti?_eq_none_iff (legal : Legal ⟨arguments⟩) :
    lastMulti? arguments = none ↔ ∀ b ∈ arguments, b.multi = false := by
  constructor
  · intro none b member
    refine Bool.eq_false_iff.mpr fun multi => ?_
    rw [lastMulti?, legal.getLast?_of_multi member multi, Option.filter_some_pos multi] at none
    cases none
  · intro narrow
    rw [lastMulti?, Option.filter_eq_none_iff]
    intro b last multi
    exact absurd ((narrow b (List.mem_of_getLast? last)).symm.trans multi) Bool.false_ne_true

/-- The scan reports the first argument that breaks a rule as soon as it comes to it. -/
theorem misplaced?_of_misplaced (legal : Legal ⟨before⟩) (misplaced : Misplaced before a) (rest : List Argument) :
    misplaced? ((lastMulti? before).map (·.name)) (before.any (·.isOptional)) (a :: rest) =
      some (fault before a) := by
  rw [fault]
  cases last : lastMulti? before with
  | some multi => rfl
  | none =>
    have narrow := legal.lastMulti?_eq_none_iff.mp last
    rcases misplaced with ⟨b, member, multi⟩ | ⟨mandatory, b, member, optional⟩
    · exact absurd ((narrow b member).symm.trans multi) Bool.false_ne_true
    · have seen : before.any (·.isOptional) = true := List.any_eq_true.mpr ⟨b, member, optional⟩
      simp [misplaced?, seen, mandatory]

/-- The scan goes on behind an argument in its place, and keeps what it needs to know of those so far. -/
theorem misplaced?_of_legal (legal : Legal ⟨before ++ [a]⟩) (rest : List Argument) :
    misplaced? ((lastMulti? before).map (·.name)) (before.any (·.isOptional)) (a :: rest) =
      misplaced? ((lastMulti? (before ++ [a])).map (·.name)) ((before ++ [a]).any (·.isOptional)) rest := by
  obtain ⟨earlier, placed⟩ := legal_concat_iff.mp legal
  have last : lastMulti? before = none := by
    refine earlier.lastMulti?_eq_none_iff.mpr fun b member => ?_
    exact Bool.eq_false_iff.mpr fun multi => placed (.inl ⟨b, member, multi⟩)
  have ordered : (before.any (·.isOptional) && !a.isOptional) = false := by
    refine Bool.eq_false_iff.mpr fun broken => ?_
    obtain ⟨seen, mandatory⟩ := Bool.and_eq_true_iff.mp broken
    exact placed (.inr ⟨by simpa using mandatory, List.any_eq_true.mp seen⟩)
  have next : (lastMulti? (before ++ [a])).map (·.name) = if a.multi then some a.name else none := by
    rw [lastMulti?, List.getLast?_concat, Option.filter_some]
    split <;> rfl
  rw [next, List.any_append, List.any_cons, List.any_nil, Bool.or_false, last, Option.map_none, misplaced?]
  simp only [ordered, Bool.false_eq_true, if_false]

theorem misplaced?_append (legal : Legal ⟨before⟩) (rest : List Argument) :
    misplaced? none false (before ++ rest) =
      misplaced? ((lastMulti? before).map (·.name)) (before.any (·.isOptional)) rest := by
  induction before using List.reverseRecOn generalizing rest with
  | nil => rfl
  | append_singleton before a ih =>
    obtain ⟨earlier, _⟩ := legal_concat_iff.mp legal
    rw [List.append_assoc, List.singleton_append, ih earlier, misplaced?_of_legal legal]

/-- A list that is not legal has a first argument that breaks a rule. -/
theorem exists_misplaced (broken : ¬Legal ⟨arguments⟩) :
    ∃ before a after, arguments = before ++ a :: after ∧ Legal ⟨before⟩ ∧ Misplaced before a := by
  induction arguments using List.reverseRecOn with
  | nil => exact absurd List.Pairwise.nil broken
  | append_singleton before a ih =>
    by_cases legal : Legal ⟨before⟩
    · have misplaced : Misplaced before a := by
        by_contra placed
        exact broken (legal_concat_iff.mpr ⟨legal, placed⟩)
      exact ⟨before, a, [], rfl, legal, misplaced⟩
    · obtain ⟨first, b, after, rfl, legal, misplaced⟩ := ih legal
      exact ⟨first, b, after ++ [a], by simp, legal, misplaced⟩

theorem legal_iff_forall_split :
    Legal ⟨arguments⟩ ↔ ∀ before a after, arguments = before ++ a :: after → ¬Misplaced before a := by
  constructor
  · rintro legal before a after rfl
    have front : (before ++ [a]).Sublist (before ++ a :: after) :=
      List.append_cons before a after ▸ List.sublist_append_left ..
    exact (legal_concat_iff.mp (List.Pairwise.sublist front legal)).2
  · intro placed
    by_contra broken
    obtain ⟨before, a, after, split, _, misplaced⟩ := exists_misplaced broken
    exact placed before a after split misplaced

theorem ofArguments_eq_error {e : DefinitionError} :
    ofArguments arguments = .error e ↔
      ∃ before a after, arguments = before ++ a :: after ∧ Legal ⟨before⟩ ∧ Misplaced before a ∧
        e = fault before a := by
  have reported : ∀ {before a after}, arguments = before ++ a :: after → Legal ⟨before⟩ → Misplaced before a →
      ofArguments arguments = .error (fault before a) := by
    rintro before a after rfl legal misplaced
    rw [ofArguments, misplaced?_append legal, misplaced?_of_misplaced legal misplaced]
  constructor
  · intro refused
    have broken : ¬Legal ⟨arguments⟩ := by
      intro legal
      rw [ofArguments_eq_ok.mpr ⟨rfl, legal⟩] at refused
      cases refused
    obtain ⟨before, a, after, split, legal, misplaced⟩ := exists_misplaced broken
    rw [reported split legal misplaced] at refused
    exact ⟨before, a, after, split, legal, misplaced, (Except.error.inj refused).symm⟩
  · rintro ⟨before, a, after, split, legal, misplaced, rfl⟩
    exact reported split legal misplaced

/-- A legal list begins with its mandatory arguments, and the optional ones are the rest. -/
theorem Legal.eq_filter_append (legal : Legal ⟨arguments⟩) :
    arguments = arguments.filter (!·.isOptional) ++ arguments.filter (·.isOptional) := by
  induction arguments with
  | nil => rfl
  | cons a rest ih =>
    obtain ⟨behind, later⟩ := List.pairwise_cons.mp legal
    cases optional : a.isOptional with
    | false => simpa [List.filter_cons, optional] using ih later
    | true =>
      have all : ∀ b ∈ a :: rest, b.isOptional = true :=
        List.forall_mem_cons.mpr ⟨optional, fun b member => (behind b member).2 optional⟩
      have none : (a :: rest).filter (!·.isOptional) = [] := by
        rw [List.filter_eq_nil_iff]
        intro b member
        simp [all b member]
      rw [none, List.nil_append, List.filter_eq_self.mpr all]

/-- Arguments make a usage when no mandatory one comes after an optional one and none after a multi one.
Otherwise the first that breaks a rule is reported: with the multi argument right before it if there is one,
and else as mandatory. In a usage the mandatory arguments come first, as many as are counted, then as many
optional ones as are counted, and only the last can be multi. -/
theorem ofArguments_judges (arguments : List Argument) :
    ((∃ u, ofArguments arguments = .ok u) ↔
      (arguments.Pairwise fun a b => ¬(a.isOptional = true ∧ b.isOptional = false)) ∧
        arguments.Pairwise fun a _ => a.multi = false) ∧
    (∀ e, ofArguments arguments = .error e ↔
      ∃ before a after, arguments = before ++ a :: after ∧ Misplaced before a ∧
        (∀ earlier b later, before = earlier ++ b :: later → ¬Misplaced earlier b) ∧ e = fault before a) ∧
    ∀ u, ofArguments arguments = .ok u → u.arguments = arguments ∧
      arguments.take u.mandatoryCount = arguments.filter (!·.isOptional) ∧
      arguments.drop u.mandatoryCount = arguments.filter (·.isOptional) ∧
      (arguments.drop u.mandatoryCount).length = u.optionalCount ∧
      u.mandatoryCount + u.optionalCount = arguments.length ∧
      (u.hasMulti = true ↔ ∃ a, arguments.getLast? = some a ∧ a.multi = true) := by
  refine ⟨?_, fun e => ?_, fun u made => ?_⟩
  · have accepted : (∃ u, ofArguments arguments = .ok u) ↔ Legal ⟨arguments⟩ := by
      simp only [ofArguments_eq_ok, exists_eq_left]
    rw [accepted, Legal, List.pairwise_and_iff, and_comm]
    simp
  · rw [ofArguments_eq_error]
    simp only [← legal_iff_forall_split, and_left_comm]
  · obtain ⟨rfl, legal⟩ := ofArguments_eq_ok.mp made
    have whole := legal.eq_filter_append
    have count : mandatoryCount ⟨arguments⟩ = (arguments.filter (!·.isOptional)).length :=
      List.countP_eq_length_filter
    have front : arguments.take (mandatoryCount ⟨arguments⟩) = arguments.filter (!·.isOptional) := by
      rw [count]
      exact (congrArg (List.take _) whole).trans List.take_left
    have back : arguments.drop (mandatoryCount ⟨arguments⟩) = arguments.filter (·.isOptional) := by
      rw [count]
      exact (congrArg (List.drop _) whole).trans List.drop_left
    refine ⟨rfl, front, back, ?_, mandatoryCount_add_optionalCount _, ?_⟩
    · rw [back, optionalCount, List.countP_eq_length_filter]
    · rw [hasMulti, List.any_eq_true]
      constructor
      · rintro ⟨a, member, multi⟩
        exact ⟨a, legal.getLast?_of_multi member multi, multi⟩
      · rintro ⟨a, last, multi⟩
        exact ⟨a, List.mem_of_getLast? last, multi⟩

/-- A mandatory argument behind an optional multi one breaks both rules, and the multi argument is named. -/
theorem ofArguments_judges_both :
    ofArguments [{ name := "rest", default? := some "", multi := true }, { name := "target" }] =
      .error (.multiNotLast "rest" "target") :=
  have alone : Legal ⟨[{ name := "rest", default? := some "", multi := true }]⟩ := List.pairwise_singleton ..
  ((ofArguments_judges _).2.1 _).mpr
    ⟨_, _, [], rfl, .inl ⟨_, List.mem_singleton_self _, rfl⟩, legal_iff_forall_split.mp alone, rfl⟩

end ChatCommands.Usage
