import Mathlib.Data.List.Basic
import ChatCommands.Proofs.Usage

namespace ChatCommands

/-- What a slot yields when it is given a text, or nothing. A default is not checked. -/
def Argument.Yields (a : Argument) (text? : Option String) (value : String) : Prop :=
  match text? with
  | some text => a.validator.check text = some value
  | none => a.default? = some value

theorem Argument.Yields.unique {a : Argument} {text? : Option String} {value other : String}
    (yields : a.Yields text? value) (also : a.Yields text? other) : value = other := by
  cases text? with
  | some text => exact Option.some.inj (yields.symm.trans also)
  | none => exact Option.some.inj (yields.symm.trans also)

namespace Usage

/-- The text that slot `i` is given: the token at that place, or all tokens from there on with blanks
between when it is a multi slot. It is given nothing when the tokens end before. -/
def given (tokens : List String) (i : Nat) (a : Argument) : Option String :=
  if a.multi then if i < tokens.length then some (" ".intercalate (tokens.drop i)) else none
  else tokens[i]?

/-- The tokens of which that text is made. -/
def portion (tokens : List String) (i : Nat) (a : Argument) : List String :=
  if a.multi then tokens.drop i else (tokens.drop i).take 1

def Rejects (tokens : List String) (i : Nat) (a : Argument) (text : String) : Prop :=
  given tokens i a = some text ∧ a.validator.check text = none

/-- Slots filled from left to right: a value for each, or the first slot that rejects its text. -/
def Filled (arguments : List Argument) (tokens : List String) : Except Mismatch (List String) → Prop
  | .ok values => values.length = arguments.length ∧ ∀ i (a : Argument), arguments[i]? = some a →
      ∃ value, values[i]? = some value ∧ a.Yields (given tokens i a) value
  | .error (.rejected name text) => ∃ i a, arguments[i]? = some a ∧ a.name = name ∧ Rejects tokens i a text ∧
      ∀ j < i, ∀ b, arguments[j]? = some b → ∀ earlier, ¬Rejects tokens j b earlier
  | .error _ => False

/-- The answers to a list of tokens: too few, too many, or as many as the slots can take. -/
def Reads (u : Usage) (tokens : List String) : Except Mismatch (List String) → Prop
  | .error (.tooFewTokens expected actual) =>
      tokens.length < u.mandatoryCount ∧ expected = u.mandatoryCount ∧ actual = tokens.length
  | .error (.tooManyTokens expected actual) =>
      u.mandatoryCount ≤ tokens.length ∧ u.arguments.length < tokens.length ∧
        (∀ a ∈ u.arguments, a.multi = false) ∧ expected = u.arguments.length ∧ actual = tokens.length
  | result => u.mandatoryCount ≤ tokens.length ∧
      (tokens.length ≤ u.arguments.length ∨ ∃ a ∈ u.arguments, a.multi = true) ∧
        Filled u.arguments tokens result

theorem given_eq_portion (tokens : List String) (i : Nat) (a : Argument) :
    given tokens i a =
      if portion tokens i a = [] then none else some (" ".intercalate (portion tokens i a)) := by
  unfold given portion
  cases a.multi with
  | true =>
    simp only [if_true, List.drop_eq_nil_iff]
    by_cases left : i < tokens.length
    · rw [if_pos left, if_neg (Nat.not_le.mpr left)]
    · rw [if_neg left, if_pos (Nat.le_of_not_lt left)]
  | false =>
    rw [if_neg Bool.false_ne_true, if_neg Bool.false_ne_true, ← List.head?_drop]
    cases tokens.drop i <;> simp

theorem portion_tail (tokens : List String) (i : Nat) (a : Argument) :
    portion tokens.tail i a = portion tokens (i + 1) a := by
  unfold portion
  rw [List.drop_tail]

theorem given_tail (tokens : List String) (i : Nat) (a : Argument) :
    given tokens.tail i a = given tokens (i + 1) a := by
  rw [given_eq_portion, given_eq_portion, portion_tail]

theorem rejects_tail {tokens : List String} {i : Nat} {a : Argument} {text : String} :
    Rejects tokens.tail i a text ↔ Rejects tokens (i + 1) a text := by
  rw [Rejects, given_tail, Rejects]

theorem given_zero_eq_none {tokens : List String} {a : Argument} : given tokens 0 a = none ↔ tokens = [] := by
  unfold given
  cases tokens <;> cases a.multi <;> simp

theorem not_rejects_of_yields {tokens : List String} {i : Nat} {a : Argument} {value text : String}
    (yields : a.Yields (given tokens i a) value) : ¬Rejects tokens i a text := by
  intro rejects
  rw [rejects.1] at yields
  exact Option.some_ne_none value (yields.symm.trans rejects.2)

theorem supply_eq (a : Argument) (tokens : List String) :
    supply a tokens = (given tokens 0 a, if a.multi then [] else tokens.tail) := by
  unfold supply given
  cases tokens <;> cases a.multi <;> simp

theorem Legal.behind {a : Argument} {rest : List Argument} (legal : Legal ⟨a :: rest⟩) :
    (a.multi = true → rest = []) ∧ Legal ⟨rest⟩ := by
  obtain ⟨first, behind⟩ := List.pairwise_cons.mp legal
  refine ⟨fun multi => ?_, behind⟩
  rw [List.eq_nil_iff_forall_not_mem]
  intro b member
  exact absurd ((first b member).1.symm.trans multi) Bool.false_ne_true

/-- Tokens enough for the mandatory slots are still enough for those behind the first slot. -/
theorem Legal.enough_behind {a : Argument} {rest : List Argument} {tokens : List String}
    (legal : Legal ⟨a :: rest⟩) (enough : (a :: rest).countP (!·.isOptional) ≤ tokens.length) :
    rest.countP (!·.isOptional) ≤ tokens.tail.length := by
  cases optional : a.isOptional with
  | true =>
    have none : rest.countP (!·.isOptional) = 0 := by
      rw [List.countP_eq_zero]
      intro b member
      simp [((List.pairwise_cons.mp legal).1 b member).2 optional]
    omega
  | false =>
    rw [List.countP_cons_of_pos (by simp [optional])] at enough
    rw [List.length_tail]
    omega

/-- Tokens enough for the mandatory slots leave none of these out. -/
theorem Legal.optional_of_left_out {arguments : List Argument} {tokens : List String} (legal : Legal ⟨arguments⟩)
    (enough : arguments.countP (!·.isOptional) ≤ tokens.length) {i : Nat} {a : Argument}
    (slot : arguments[i]? = some a) (leftOut : given tokens i a = none) : a.isOptional = true := by
  induction arguments generalizing tokens i with
  | nil => cases slot
  | cons b rest ih =>
    cases i with
    | zero =>
      cases slot
      by_contra mandatory
      rw [given_zero_eq_none.mp leftOut, List.countP_cons_of_pos (by simpa using mandatory)] at enough
      exact absurd enough (Nat.not_succ_le_zero _)
    | succ i =>
      rw [← given_tail] at leftOut
      exact ih legal.behind.2 (legal.enough_behind enough) slot leftOut

theorem fill_of_yields {shortage : Mismatch} {a : Argument} {rest : List Argument} {tokens : List String}
    {value : String} (yields : a.Yields (given tokens 0 a) value) :
    fill shortage (a :: rest) tokens =
      (value :: ·) <$> fill shortage rest (if a.multi then [] else tokens.tail) := by
  rw [fill, supply_eq]
  cases supplied : given tokens 0 a with
  | some text =>
    rw [supplied] at yields
    simp only [show a.validator.check text = some value from yields]
    rfl
  | none =>
    rw [supplied] at yields
    simp only [show a.default? = some value from yields]
    rfl

theorem fill_of_rejects {shortage : Mismatch} {a : Argument} {rest : List Argument} {tokens : List String}
    {text : String} (rejects : Rejects tokens 0 a text) :
    fill shortage (a :: rest) tokens = .error (.rejected a.name text) := by
  rw [fill, supply_eq, rejects.1]
  simp only [rejects.2]
  rfl

/-- A slot that rejects nothing in front of the others changes neither which slot rejects first nor what
the others yield. -/
theorem Filled.cons {a : Argument} {rest : List Argument} {tokens : List String} {value : String}
    {result : Except Mismatch (List String)} (yields : a.Yields (given tokens 0 a) value)
    (behind : Filled rest tokens.tail result) : Filled (a :: rest) tokens ((value :: ·) <$> result) := by
  cases result with
  | ok values =>
    obtain ⟨length, each⟩ := behind
    refine ⟨by simp [length], fun i b found => ?_⟩
    cases i with
    | zero =>
      cases found
      exact ⟨value, rfl, yields⟩
    | succ i =>
      rw [← given_tail]
      exact each i b found
  | error mismatch =>
    cases mismatch with
    | tooFewTokens => exact behind.elim
    | tooManyTokens => exact behind.elim
    | rejected name text =>
      obtain ⟨i, b, found, named, rejects, first⟩ := behind
      refine ⟨i + 1, b, found, named, rejects_tail.mp rejects, fun j before c slot earlier refused => ?_⟩
      cases j with
      | zero =>
        cases slot
        exact not_rejects_of_yields yields refused
      | succ j => exact first j (Nat.lt_of_succ_lt_succ before) c slot earlier (rejects_tail.mpr refused)

/-- Filling does what it should once there are tokens for the mandatory slots. The induction is on the
slots; that mandatory ones come first keeps the tokens from running out in front of one. -/
theorem filled_fill {shortage : Mismatch} {arguments : List Argument} {tokens : List String}
    (legal : Legal ⟨arguments⟩) (enough : arguments.countP (!·.isOptional) ≤ tokens.length) :
    Filled arguments tokens (fill shortage arguments tokens) := by
  induction arguments generalizing tokens with
  | nil => exact ⟨rfl, fun i a found => (nomatch found)⟩
  | cons a rest ih =>
    obtain ⟨last, legalRest⟩ := legal.behind
    have behind : Filled rest tokens.tail (fill shortage rest (if a.multi then [] else tokens.tail)) := by
      cases multi : a.multi with
      | false => exact ih legalRest (legal.enough_behind enough)
      | true =>
        rw [last multi]
        exact ⟨rfl, fun i b found => (nomatch found)⟩
    cases supplied : given tokens 0 a with
    | some text =>
      cases checked : a.validator.check text with
      | some value =>
        have yields : a.Yields (given tokens 0 a) value := by rw [supplied]; exact checked
        rw [fill_of_yields yields]
        exact behind.cons yields
      | none =>
        rw [fill_of_rejects ⟨supplied, checked⟩]
        exact ⟨0, a, rfl, rfl, ⟨supplied, checked⟩, fun j before => absurd before (Nat.not_lt_zero j)⟩
    | none =>
      obtain ⟨value, default⟩ := Option.isSome_iff_exists.mp (legal.optional_of_left_out enough (i := 0) rfl supplied)
      have yields : a.Yields (given tokens 0 a) value := by rw [supplied]; exact default
      rw [fill_of_yields yields]
      exact behind.cons yields

theorem Filled.not_rejected {arguments : List Argument} {tokens values : List String} {i : Nat} {a : Argument}
    {text : String} (filled : Filled arguments tokens (.ok values)) (slot : arguments[i]? = some a) :
    ¬Rejects tokens i a text := by
  obtain ⟨value, _, yields⟩ := filled.2 i a slot
  exact not_rejects_of_yields yields

theorem Filled.ok_unique {arguments : List Argument} {tokens values others : List String}
    (filled : Filled arguments tokens (.ok values)) (also : Filled arguments tokens (.ok others)) :
    values = others := by
  refine List.ext_getElem? fun i => ?_
  cases slot : arguments[i]? with
  | none =>
    rw [List.getElem?_eq_none_iff] at slot
    rw [List.getElem?_eq_none (by rw [filled.1]; exact slot), List.getElem?_eq_none (by rw [also.1]; exact slot)]
  | some a =>
    obtain ⟨value, here, yields⟩ := filled.2 i a slot
    obtain ⟨other, there, same⟩ := also.2 i a slot
    rw [here, there, yields.unique same]

theorem Filled.rejected_unique {arguments : List Argument} {tokens : List String} {name name' text text' : String}
    (filled : Filled arguments tokens (.error (.rejected name text)))
    (also : Filled arguments tokens (.error (.rejected name' text'))) : name = name' ∧ text = text' := by
  obtain ⟨i, a, slot, rfl, rejects, first⟩ := filled
  obtain ⟨j, b, slot', rfl, rejects', first'⟩ := also
  rcases Nat.lt_trichotomy i j with before | rfl | after
  · exact absurd rejects (first' i before a slot text)
  · cases slot.symm.trans slot'
    exact ⟨rfl, Option.some.inj (rejects.1.symm.trans rejects'.1)⟩
  · exact absurd rejects' (first j after b slot' text')

theorem Filled.unique {arguments : List Argument} {tokens : List String}
    {result other : Except Mismatch (List String)} (filled : Filled arguments tokens result)
    (also : Filled arguments tokens other) : result = other := by
  match result, other with
  | .ok values, .ok others => rw [filled.ok_unique also]
  | .ok values, .error (.rejected name text) =>
    obtain ⟨i, a, slot, _, rejects, _⟩ := also
    exact absurd rejects (filled.not_rejected slot)
  | .error (.rejected name text), .ok others =>
    obtain ⟨i, a, slot, _, rejects, _⟩ := filled
    exact absurd rejects (also.not_rejected slot)
  | .error (.rejected name text), .error (.rejected name' text') =>
    obtain ⟨rfl, rfl⟩ := filled.rejected_unique also
    rfl

theorem mandatoryCount_add_optionalCount (u : Usage) :
    u.mandatoryCount + u.optionalCount = u.arguments.length := by
  rw [mandatoryCount, optionalCount, Nat.add_comm, List.length_eq_countP_add_countP (·.isOptional)]
  simp

/-- Whether there are tokens enough for the mandatory slots, and slots enough for the tokens, tells which
kind of answer there is. -/
theorem reads_iff {u : Usage} {tokens : List String} {result : Except Mismatch (List String)} :
    u.Reads tokens result ↔
      (tokens.length < u.mandatoryCount ∧ result = .error (.tooFewTokens u.mandatoryCount tokens.length)) ∨
      (u.mandatoryCount ≤ tokens.length ∧ u.arguments.length < tokens.length ∧
        (∀ a ∈ u.arguments, a.multi = false) ∧
        result = .error (.tooManyTokens u.arguments.length tokens.length)) ∨
      (u.mandatoryCount ≤ tokens.length ∧
        (tokens.length ≤ u.arguments.length ∨ ∃ a ∈ u.arguments, a.multi = true) ∧
        Filled u.arguments tokens result) := by
  match result with
  | .ok values => simp [Reads]
  | .error (.tooFewTokens expected actual) => simp [Reads, Filled]
  | .error (.tooManyTokens expected actual) => simp [Reads, Filled]
  | .error (.rejected name text) => simp [Reads]

theorem Reads.unique {u : Usage} {tokens : List String} {result other : Except Mismatch (List String)}
    (reads : u.Reads tokens result) (also : u.Reads tokens other) : result = other := by
  have noRoom : u.arguments.length < tokens.length → (∀ a ∈ u.arguments, a.multi = false) →
      ¬(tokens.length ≤ u.arguments.length ∨ ∃ a ∈ u.arguments, a.multi = true) := by
    rintro many narrow (few | ⟨a, member, wide⟩)
    · omega
    · exact Bool.false_ne_true ((narrow a member).symm.trans wide)
  rcases reads_iff.mp reads with ⟨few, rfl⟩ | ⟨enough, many, narrow, rfl⟩ | ⟨enough, room, filled⟩ <;>
    rcases reads_iff.mp also with ⟨few', rfl⟩ | ⟨enough', many', narrow', rfl⟩ | ⟨enough', room', filled'⟩
  · rfl
  · omega
  · omega
  · omega
  · rfl
  · exact absurd room' (noRoom many narrow)
  · omega
  · exact absurd room (noRoom many' narrow')
  · exact filled.unique filled'

theorem reads_matchTokens {u : Usage} (legal : u.Legal) (tokens : List String) :
    u.Reads tokens (u.matchTokens tokens) := by
  rw [reads_iff]
  simp only [matchTokens, mandatoryCount_add_optionalCount]
  by_cases few : tokens.length < u.mandatoryCount
  · rw [if_pos few]
    exact .inl ⟨few, rfl⟩
  rw [if_neg few]
  have enough := Nat.not_lt.mp few
  by_cases many : (decide (u.arguments.length < tokens.length) && !u.hasMulti) = true
  · rw [if_pos many]
    simp only [hasMulti, Bool.and_eq_true, decide_eq_true_eq, Bool.not_eq_true', List.any_eq_false] at many
    exact .inr (.inl ⟨enough, many.1, fun a member => Bool.eq_false_iff.mpr (many.2 a member), rfl⟩)
  · rw [if_neg many]
    have room : tokens.length ≤ u.arguments.length ∨ ∃ a ∈ u.arguments, a.multi = true := by
      by_contra noRoom
      simp only [not_or, Nat.not_le, not_exists, not_and, Bool.not_eq_true] at noRoom
      refine many ?_
      simpa [hasMulti] using noRoom
    exact .inr (.inr ⟨enough, room, filled_fill legal enough⟩)

/-- The portions of all slots, one after another, are the tokens. -/
theorem flatten_portions {arguments : List Argument} {tokens : List String} (legal : Legal ⟨arguments⟩)
    (room : tokens.length ≤ arguments.length ∨ ∃ a ∈ arguments, a.multi = true) :
    (arguments.mapIdx (portion tokens)).flatten = tokens := by
  induction arguments generalizing tokens with
  | nil =>
    rcases room with few | ⟨a, member, _⟩
    · exact (List.eq_nil_of_length_eq_zero (Nat.le_zero.mp few)).symm
    · cases member
  | cons a rest ih =>
    obtain ⟨last, legalRest⟩ := legal.behind
    have behind : (fun i => portion tokens (i + 1)) = portion tokens.tail :=
      funext fun i => funext fun b => (portion_tail tokens i b).symm
    rw [List.mapIdx_cons, List.flatten_cons, behind]
    cases multi : a.multi with
    | true => simp [last multi, portion, multi]
    | false =>
      have roomRest : tokens.tail.length ≤ rest.length ∨ ∃ b ∈ rest, b.multi = true := by
        rcases room with few | ⟨b, member, wide⟩
        · rw [List.length_cons] at few
          rw [List.length_tail]
          exact .inl (by omega)
        · rcases List.mem_cons.mp member with rfl | member
          · exact absurd (multi.symm.trans wide) Bool.false_ne_true
          · exact .inr ⟨b, member, wide⟩
      rw [ih legalRest roomRest]
      cases tokens <;> simp [portion, multi]

/-- Matching answers as the counts of tokens and slots and the validators tell, and in one way only. When
it succeeds, each token has gone to one slot, in order. Every slot that is given nothing has a default, so
the answer for a mandatory slot without a token is never used while the slots are filled. -/
theorem matchTokens_eq_iff {arguments : List Argument} {u : Usage} (made : ofArguments arguments = .ok u)
    (tokens : List String) :
    u.arguments = arguments ∧
    (∀ result, u.matchTokens tokens = result ↔ u.Reads tokens result) ∧
    (∀ values, u.matchTokens tokens = .ok values → (arguments.mapIdx (portion tokens)).flatten = tokens) ∧
    (∀ i a, given tokens i a =
      if portion tokens i a = [] then none else some (" ".intercalate (portion tokens i a))) ∧
    (u.mandatoryCount ≤ tokens.length →
      (∀ i a, arguments[i]? = some a → given tokens i a = none → a.isOptional = true) ∧
        ∀ shortage other, fill shortage arguments tokens = fill other arguments tokens) := by
  obtain ⟨rfl, legal⟩ := ofArguments_eq_ok.mp made
  refine ⟨rfl, fun result => ?_, fun values matched => ?_, given_eq_portion tokens, fun enough => ⟨?_, ?_⟩⟩
  · constructor
    · rintro rfl
      exact reads_matchTokens legal tokens
    · exact (reads_matchTokens legal tokens).unique
  · have reads := reads_matchTokens legal tokens
    rw [matched] at reads
    exact flatten_portions legal reads.2.1
  · exact fun i a slot leftOut => legal.optional_of_left_out enough slot leftOut
  · exact fun shortage other => (filled_fill legal enough).unique (filled_fill legal enough)

/-- A mandatory, an optional and a multi slot. -/
def sample : List Argument :=
  [{ name := "count", validator := .integer }, { name := "unit", default? := some "s" },
    { name := "note", default? := some "", multi := true }]

/-- More tokens than slots: the last two go to the multi slot. -/
theorem matchTokens_eq_iff_multi :
    ofArguments sample = .ok ⟨sample⟩ ∧
      Reads ⟨sample⟩ ["3", "min", "so", "on"] (.ok ["3", "min", "so on"]) := by
  have made : ofArguments sample = .ok ⟨sample⟩ := rfl
  have matched : (⟨sample⟩ : Usage).matchTokens ["3", "min", "so", "on"] = .ok ["3", "min", "so on"] := by
    decide +kernel
  exact ⟨made, ((matchTokens_eq_iff made _).2.1 _).mp matched⟩

end Usage

end ChatCommands
