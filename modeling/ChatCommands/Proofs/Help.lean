import Mathlib.Data.List.Basic
import ChatCommands.Help
import ChatCommands.Proofs.Command.Lineage

namespace ChatCommands

variable {α : Type} {tops : List (Command α)}

/-- A full name has no letter in it that lowercase changes. -/
theorem Command.Lineage.capital_not_mem (sound : ∀ c ∈ tops, c.WellFormed none) {above : List (Command α)}
    {c : Command α} (reach : Lineage tops above c) : 'U' ∉ c.fullName.toList := by
  have named : ∀ {parent? : Option String} {c : Command α}, c.WellFormed parent? → 'U' ∉ c.name.toList := by
    intro parent? c formed capital
    rw [← formed.normal.lowered] at capital
    exact absurd (Text.isLower_of_mem_lower capital).2 (by decide +kernel)
  induction reach with
  | @top c member =>
    have placed := (sound c member).fits.placed
    rw [fullName, Profile.fullName, placed]
    exact named (sound c member)
  | @child above b c reach member ih =>
    have formed := (reach.formed sound).child member
    rw [fullName, Profile.fullName, formed.fits.placed, Name.under_some]
    simp only [String.toList_append, List.mem_append, not_or]
    exact ⟨⟨ih, by decide⟩, named formed⟩

namespace Help

theorem front_eq_of_first {u : Char} {front front' back back' : List Char} (absent : u ∉ front)
    (absent' : u ∉ front') (same : front ++ u :: back = front' ++ u :: back') : front = front' := by
  induction front generalizing front' with
  | nil =>
    cases front' with
    | nil => rfl
    | cons c rest =>
      cases same
      exact absurd (List.mem_cons_self ..) absent'
  | cons c rest ih =>
    cases front' with
    | nil =>
      cases same
      exact absurd (List.mem_cons_self ..) absent
    | cons d rest' =>
      obtain ⟨rfl, later⟩ := List.cons.inj same
      rw [ih (List.not_mem_of_not_mem_cons absent) (List.not_mem_of_not_mem_cons absent') later]

/-- What comes behind a mark can be told from the whole text, when it lacks some letter of the mark. -/
theorem back_eq_of_marked {u : Char} {front front' mark back back' : List Char} (marked : u ∈ mark)
    (plain : u ∉ back) (plain' : u ∉ back') (same : front ++ (mark ++ back) = front' ++ (mark ++ back')) :
    back = back' := by
  obtain ⟨tail, head, split, fresh⟩ := List.eq_append_cons_of_mem (List.mem_reverse.mpr marked)
  have turned := congrArg List.reverse same
  simp only [List.reverse_append, split, List.append_assoc, List.cons_append] at turned
  rw [← List.append_assoc, ← List.append_assoc back'.reverse] at turned
  have missing : ∀ {cs : List Char}, u ∉ cs → u ∉ cs.reverse ++ tail := by
    intro cs absent
    simp [absent, fresh]
  have ends := front_eq_of_first (missing plain) (missing plain') turned
  exact List.reverse_injective (List.append_cancel_right ends)

/-- A text that ends in the hint to a command's help shows the full name of the command. -/
theorem fullName_eq_of_hint {front front' lead : String} {c c' : Command α} (plain : 'U' ∉ c.fullName.toList)
    (plain' : 'U' ∉ c'.fullName.toList) (same : front ++ hint lead c = front' ++ hint lead c') :
    c.fullName = c'.fullName := by
  have shape : ∀ c : Command α, (hint lead c).toList =
      ("(Use `" ++ lead ++ "help ").toList ++ c.fullName.toList ++ "` for more details)".toList := by
    intro c
    simp [hint, toString]
  have texts := congrArg String.toList same
  rw [String.toList_append, String.toList_append, shape, shape, ← List.append_assoc front.toList,
    ← List.append_assoc front'.toList] at texts
  have marked : 'U' ∈ ("(Use `" ++ lead ++ "help ").toList := by simp
  exact String.toList_injective (back_eq_of_marked marked plain plain' (List.append_cancel_right texts))

theorem exists_front_leafUsage (lead : String) (c : Command α) :
    ∃ front, leafUsage lead c = front ++ hint lead c := ⟨_, rfl⟩

theorem exists_front_branchUsage (lead : String) (c : Command α) :
    ∃ front, branchUsage lead c = front ++ hint lead c := ⟨_, rfl⟩

/-- The help of a command up to its aliases. -/
def opening (lead : String) (p : Profile) : String :=
  "`" ++ lead ++ p.fullName ++ "`: " ++ p.documentation.description ++ (p.documentation.details?.elim "" ("\n\n" ++ ·))

/-- The invocations that the help of a command shows for its aliases. -/
def aliasInvocations (lead : String) (p : Profile) : List String := p.aliases.map (lead ++ ·)

/-- The section of the help that shows the invocations for aliases. There is none when there are no aliases. -/
def aliasSection (invocations : List String) : String :=
  if invocations.isEmpty then ""
  else "\n\n**Aliases**: " ++ ", ".intercalate (invocations.map fun shown => "`" ++ shown ++ "`")

def exampleSection (lead : String) (examples : List Example) : String :=
  if examples.isEmpty then ""
  else "\n\n**Examples**:" ++ String.join (examples.map fun e => "\n" ++ exampleLine lead e)

theorem aliasSection_invocations (lead : String) (p : Profile) : aliasSection (aliasInvocations lead p) =
    if p.aliases.isEmpty then ""
    else "\n\n**Aliases**: " ++ ", ".intercalate (p.aliases.map fun name => "`" ++ (lead ++ (name ++ "`"))) := by
  simp only [aliasSection, aliasInvocations, List.isEmpty_map, List.map_map, Function.comp_def, String.append_assoc]

/-- The parts of the help of a command. -/
theorem ofCommand_eq (lead : String) (c : Command α) : ofCommand lead c =
    opening lead c.profile ++ aliasSection (aliasInvocations lead c.profile) ++ "\n\n**Usage**: `" ++ lead ++
      c.usageText ++ "`" ++ exampleSection lead c.profile.documentation.examples := by
  rw [aliasSection_invocations, ofCommand, opening, exampleSection, Command.fullName, Command.description]
  cases c.profile.documentation.details? with
  | none => simp only [toString, String.append_assoc, Option.elim]
  | some text => simp only [toString, String.append_assoc, Option.elim]

theorem usageLine_eq (lead : String) (c : Command α) : usageLine lead c =
    "The correct usage is `" ++ lead ++ c.usageText ++ "`\n\n" := rfl

end Help

end ChatCommands
