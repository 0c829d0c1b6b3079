import ChatCommands.Proofs.Format.Validator
import ChatCommands.Proofs.Text.Integer

namespace ChatCommands

open Text

namespace Validator

variable {token value : String} {cs : List Char} {ds : List (Fin 10)}

theorem verbatim_eq_some_iff {label : String} {accepts : String → Bool} :
    (verbatim label accepts).check token = some value ↔ accepts token = true ∧ value = token := by
  rw [verbatim, Option.ite_none_right_eq_some, Option.some.injEq, eq_comm (a := token)]

theorem integerValue?_eq_some_iff {n : Int} :
    integerValue? token = some n ↔ Writes token n ∧ leastInteger ≤ n ∧ n ≤ greatestInteger := by
  rw [integerValue?, Option.filter_eq_some_iff, integer?_eq_some_iff, Bool.and_eq_true, decide_eq_true_iff,
    decide_eq_true_iff]

theorem mentioned?_eq_some_iff :
    mentioned? cs = some value ↔ ∃ ds, ds ≠ [] ∧ cs = row ds ++ ['>'] ∧ value = String.ofList (row ds) := by
  rw [mentioned?]
  constructor
  · intro found
    split at found
    · rename_i digits reversed
      obtain ⟨numeral, same⟩ := Option.ite_none_right_eq_some.mp found
      obtain ⟨ds, nonempty, rfl⟩ := isNumeral_iff.mp numeral
      cases same
      rw [List.reverse_eq_cons_iff, ← row_reverse] at reversed
      exact ⟨ds.reverse, mt List.reverse_eq_nil_iff.mp nonempty, reversed, by rw [row_reverse]⟩
    · cases found
  · rintro ⟨ds, nonempty, rfl, rfl⟩
    have numeral : isNumeral (row ds.reverse) = true :=
      isNumeral_iff.mpr ⟨_, mt List.reverse_eq_nil_iff.mp nonempty, rfl⟩
    simp only [List.reverse_append, List.reverse_singleton, List.singleton_append, ← row_reverse, numeral, if_true]
    rw [List.reverse_reverse]

theorem toList_around (front : String) :
    (front ++ String.ofList (row ds) ++ ">").toList = front.toList ++ (row ds ++ ['>']) := by
  rw [String.toList_append, String.toList_append, String.toList_ofList, List.append_assoc]
  rfl

end Validator

namespace ValidatorSpec

/-- What a validator is about: the tokens that it should accept, each with the value that it stands for. Of doubles
nothing is said. -/
inductive Admits : ValidatorSpec → String → String → Prop
  | string {token} : Admits .string token token
  | integer {token n} : Writes token n → Validator.leastInteger ≤ n → n ≤ Validator.greatestInteger →
      Admits .integer token token
  | integerRange {min max token n} : Writes token n → min ≤ n → n ≤ max → Admits (.integerRange min max) token token
  | oneOf {options token} : token ∈ options → Admits (.oneOf options) token token
  | yes : Admits .boolean "true" "true"
  | no : Admits .boolean "false" "false"
  | user {ds} : ds ≠ [] → Admits .userMention ("<@" ++ String.ofList (row ds) ++ ">") (String.ofList (row ds))
  | nickname {ds} : ds ≠ [] → Admits .userMention ("<@!" ++ String.ofList (row ds) ++ ">") (String.ofList (row ds))
  | channel {ds} : ds ≠ [] → Admits .channelMention ("<#" ++ String.ofList (row ds) ++ ">") (String.ofList (row ds))

/-- Has nothing to do with doubles. -/
def IsDiscrete : ValidatorSpec → Prop
  | float => False
  | floatRange _ _ => False
  | _ => True

variable {spec : ValidatorSpec} {token value : String}

theorem userMention_eq_some_iff :
    Validator.userMention.check token = some value ↔ userMention.Admits token value := by
  simp only [Validator.userMention]
  constructor
  · intro found
    split at found
    · rename_i cs told
      obtain ⟨ds, nonempty, rfl, rfl⟩ := Validator.mentioned?_eq_some_iff.mp found
      rw [String.toList_inj.mp (told.trans (Validator.toList_around "<@!").symm)]
      exact .nickname nonempty
    · rename_i cs told
      obtain ⟨ds, nonempty, rfl, rfl⟩ := Validator.mentioned?_eq_some_iff.mp found
      rw [String.toList_inj.mp (told.trans (Validator.toList_around "<@").symm)]
      exact .user nonempty
    · cases found
  · intro admits
    cases admits with
    | @nickname ds nonempty =>
      rw [Validator.toList_around]
      exact Validator.mentioned?_eq_some_iff.mpr ⟨ds, nonempty, rfl, rfl⟩
    | @user ds nonempty =>
      rw [Validator.toList_around]
      split
      · rename_i marked
        have begun := (List.cons.inj (List.cons.inj marked).2).2
        exact absurd begun (row_append_ne_cons nonempty rfl)
      · rename_i cs _ told
        have rest := (List.cons.inj (List.cons.inj told).2).2
        exact Validator.mentioned?_eq_some_iff.mpr ⟨ds, nonempty, rest.symm, rfl⟩
      · rename_i other
        exact absurd rfl (other (row ds ++ ['>']))

theorem channelMention_eq_some_iff :
    Validator.channelMention.check token = some value ↔ channelMention.Admits token value := by
  simp only [Validator.channelMention]
  constructor
  · intro found
    split at found
    · rename_i cs told
      obtain ⟨ds, nonempty, rfl, rfl⟩ := Validator.mentioned?_eq_some_iff.mp found
      rw [String.toList_inj.mp (told.trans (Validator.toList_around "<#").symm)]
      exact .channel nonempty
    · cases found
  · intro admits
    cases admits with
    | @channel ds nonempty =>
      rw [Validator.toList_around]
      exact Validator.mentioned?_eq_some_iff.mpr ⟨ds, nonempty, rfl, rfl⟩

/-- A validator that was built accepts the tokens that it should accept, and no others. -/
theorem check_eq_some_iff {argument : String} {v : Validator} (fits : spec.Fits) (discrete : spec.IsDiscrete)
    (built : spec.build argument = .ok v) : v.check token = some value ↔ spec.Admits token value := by
  cases spec with
  | string =>
    cases built
    rw [Validator.string, Validator.verbatim_eq_some_iff]
    constructor
    · rintro ⟨_, rfl⟩
      exact .string
    · rintro ⟨⟩
      exact ⟨rfl, rfl⟩
  | integer =>
    cases built
    rw [Validator.integer, Validator.verbatim_eq_some_iff, Option.isSome_iff_exists]
    constructor
    · rintro ⟨⟨n, read⟩, rfl⟩
      obtain ⟨writes, least, greatest⟩ := Validator.integerValue?_eq_some_iff.mp read
      exact .integer writes least greatest
    · rintro (_ | ⟨writes, least, greatest⟩)
      exact ⟨⟨_, Validator.integerValue?_eq_some_iff.mpr ⟨writes, least, greatest⟩⟩, rfl⟩
  | integerRange min max =>
    rw [build] at built
    split at built
    · cases built
    cases built
    rw [Validator.integerRange, Validator.verbatim_eq_some_iff, Option.any_eq_true]
    constructor
    · rintro ⟨⟨n, read, within⟩, rfl⟩
      obtain ⟨low, high⟩ := Bool.and_eq_true_iff.mp within
      exact .integerRange (Validator.integerValue?_eq_some_iff.mp read).1 (of_decide_eq_true low)
        (of_decide_eq_true high)
    · rintro (_ | _ | ⟨writes, low, high⟩)
      have least : Validator.leastInteger ≤ _ := fits.1.1.trans low
      have greatest : _ ≤ Validator.greatestInteger := high.trans (Int.le_of_lt_add_one fits.2.2)
      refine ⟨⟨_, Validator.integerValue?_eq_some_iff.mpr ⟨writes, least, greatest⟩, ?_⟩, rfl⟩
      exact Bool.and_eq_true_iff.mpr ⟨decide_eq_true low, decide_eq_true high⟩
  | float | floatRange => exact discrete.elim
  | oneOf options =>
    rw [build] at built
    split at built
    · cases built
    cases built
    rw [Validator.oneOf, Validator.verbatim_eq_some_iff, List.contains_iff_mem]
    constructor
    · rintro ⟨member, rfl⟩
      exact .oneOf member
    · rintro ⟨⟩
      exact ⟨‹_›, rfl⟩
  | boolean =>
    cases built
    rw [Validator.boolean, Validator.verbatim_eq_some_iff, Bool.or_eq_true, beq_iff_eq, beq_iff_eq]
    constructor
    · rintro ⟨rfl | rfl, rfl⟩
      · exact .yes
      · exact .no
    · rintro ⟨⟩
      · exact ⟨.inl rfl, rfl⟩
      · exact ⟨.inr rfl, rfl⟩
  | userMention =>
    cases built
    exact userMention_eq_some_iff
  | channelMention =>
    cases built
    exact channelMention_eq_some_iff

/-- A validator can be built when there is something for it to accept. -/
theorem exists_built_of_admits {argument : String} (admits : spec.Admits token value) :
    ∃ v, spec.build argument = .ok v := by
  cases admits with
  | integerRange _ low high => exact ⟨_, if_neg (not_lt.mpr (low.trans high))⟩
  | oneOf member =>
    have some : ¬ List.isEmpty _ = true := mt List.isEmpty_iff.mp (List.ne_nil_of_mem member)
    exact ⟨_, if_neg some⟩
  | string | integer | yes | no | user | nickname | channel => exact ⟨_, rfl⟩

/-- There is something to accept for every validator that is built. -/
theorem exists_admits_of_built {argument : String} {v : Validator} (discrete : spec.IsDiscrete)
    (built : spec.build argument = .ok v) : ∃ token value, spec.Admits token value := by
  cases spec with
  | string => exact ⟨"", "", .string⟩
  | integer =>
    obtain ⟨token, writes⟩ := exists_writes 0
    exact ⟨token, token, .integer writes (by decide) (by decide)⟩
  | integerRange min max =>
    obtain ⟨token, writes⟩ := exists_writes min
    refine ⟨token, token, .integerRange writes le_rfl (not_lt.mp fun empty => ?_)⟩
    cases (if_pos empty).symm.trans built
  | float | floatRange => exact discrete.elim
  | oneOf options =>
    cases options with
    | nil => cases built
    | cons option rest => exact ⟨option, option, .oneOf (List.mem_cons_self ..)⟩
  | boolean => exact ⟨_, _, .yes⟩
  | userMention => exact ⟨_, _, .user (List.cons_ne_nil 0 [])⟩
  | channelMention => exact ⟨_, _, .channel (List.cons_ne_nil 0 [])⟩

/-- A declared validator can be built just when there is a token that it should accept. What is built accepts just
those tokens, and yields the digits of a mention, and any other token as it is. -/
theorem build_judges (argument : String) (fits : spec.Fits) (discrete : spec.IsDiscrete) :
    ((∃ v, spec.build argument = .ok v) ↔ ∃ token value, spec.Admits token value) ∧
    ∀ v, spec.build argument = .ok v → ∀ token value, v.check token = some value ↔ spec.Admits token value :=
  ⟨⟨fun ⟨_, built⟩ => exists_admits_of_built discrete built, fun ⟨_, _, admits⟩ => exists_built_of_admits admits⟩,
    fun _ built _ _ => check_eq_some_iff fits discrete built⟩

/-- All the whole numbers of 64 bits, down to the least of them with a leading zero, and an empty range. -/
theorem build_judges_ranges :
    (integerRange (-9223372036854775808) 9223372036854775807).Fits ∧
      (integerRange (-9223372036854775808) 9223372036854775807).IsDiscrete ∧
      (integerRange 2 1).Fits ∧ (integerRange 2 1).IsDiscrete ∧
      (integerRange (-9223372036854775808) 9223372036854775807).Admits "-09223372036854775808"
        "-09223372036854775808" ∧
      ¬ ∃ token value, (integerRange 2 1).Admits token value := by
  have whole : (integerRange (-9223372036854775808) 9223372036854775807).Fits :=
    ⟨⟨by decide, by decide⟩, by decide, by decide⟩
  have empty : (integerRange 2 1).Fits := ⟨⟨by decide, by decide⟩, by decide, by decide⟩
  refine ⟨whole, trivial, empty, trivial, ?_, fun some => ?_⟩
  · exact ((build_judges "n" whole trivial).2 _ rfl _ _).mp (by decide)
  · obtain ⟨v, built⟩ := (build_judges "n" empty trivial).1.mpr some
    cases built

end ValidatorSpec

end ChatCommands
