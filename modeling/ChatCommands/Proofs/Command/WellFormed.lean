import ChatCommands.Proofs.Command.Building

namespace ChatCommands

/-- A profile as building leaves it, for a command that stands below `parent?`. -/
structure Profile.Fits (p : Profile) (parent? : Option String) : Prop where
  placed : p.parent? = parent?
  normal : ∀ name ∈ p.names, Name.IsNormal name
  distinct : p.names.Nodup
  grouped : Name.IsNormal p.group
  unflagged : parent?.isSome = true → p.ownerOnly = false ∧ p.dmAllowed = false

/-- Command trees in which every rule of structure holds, at every depth. The parent of each command
below the top is the path of the branch that it stands in. -/
inductive Command.WellFormed {α : Type} : Option String → Command α → Prop
  | branch {parent? profile children} : profile.Fits parent? → children ≠ [] → Command.Distinct children →
      (∀ c ∈ children, WellFormed (some profile.fullName) c) → WellFormed parent? (.branch profile children)
  | leaf {parent? profile usage action} : profile.Fits parent? → usage.Legal →
      WellFormed parent? (.leaf profile usage action)

theorem Command.WellFormed.fits {α : Type} {parent? : Option String} {c : Command α}
    (formed : c.WellFormed parent?) : c.profile.Fits parent? := by
  cases formed with
  | branch fits => exact fits
  | leaf fits => exact fits

theorem Command.WellFormed.normal {α : Type} {parent? : Option String} {c : Command α}
    (formed : c.WellFormed parent?) : Name.IsNormal c.name :=
  formed.fits.normal c.name (List.mem_cons_self ..)

theorem Command.WellFormed.answersTo_name {α : Type} {parent? : Option String} {c : Command α}
    (formed : c.WellFormed parent?) : c.answersTo (Text.lower c.name) = true := by
  rw [Command.answersTo_iff, formed.normal.lowered]
  exact List.mem_cons_self ..

namespace Draft

variable {α : Type}

theorem fits_of_buildProfile {d : Draft α} {parent? : Option String} {inherited : String} {p : Profile}
    (normal : Name.IsNormal inherited) (run : d.buildProfile parent? inherited = .ok p) : p.Fits parent? := by
  obtain ⟨named, unflagged, rfl⟩ := buildProfile_eq_ok.mp run
  have normals : ∀ name ∈ d.forms, Name.IsNormal name := by
    intro name member
    obtain ⟨raw, given, rfl⟩ := List.mem_map.mp member
    exact Name.isNormal_lower (named.usable raw given)
  have grouped : Name.IsNormal ((d.group?.map Name.form).getD inherited) := by
    cases own : d.group? with
    | some raw => exact Name.isNormal_lower (named.grouped raw own)
    | none => exact normal
  exact ⟨rfl, normals, named.distinct, grouped, unflagged⟩

theorem placed_of_buildProfile {d : Draft α} {parent? : Option String} {inherited : String} {p : Profile}
    (run : d.buildProfile parent? inherited = .ok p) :
    Name.normalise d.name = .ok p.name ∧ p.parent? = parent? := by
  obtain ⟨named, _, rfl⟩ := buildProfile_eq_ok.mp run
  exact ⟨Name.normalise_eq_ok_iff_form.mpr ⟨named.usable d.name (List.mem_cons_self ..), rfl⟩, rfl⟩

theorem wellFormed_of_buildUnder {d : Draft α} {parent? : Option String} {inherited : String} {c : Command α}
    (normal : Name.IsNormal inherited) (run : d.buildUnder parent? inherited = .ok c) : c.WellFormed parent? := by
  induction d using of_subcommands generalizing parent? inherited c with
  | step d ih =>
    obtain ⟨profile, profiled, shape⟩ := buildUnder_eq_ok.mp run
    have fits := fits_of_buildProfile normal profiled
    rcases shape with ⟨usage, action, _, _, slots, rfl⟩ | ⟨children, many, _, _, built, distinct, rfl⟩
    · exact .leaf fits (Usage.ofArguments_eq_ok.mp slots).2
    · have each := buildAll_eq_ok.mp built
      refine .branch fits (fun none => many ?_) distinct fun c member => ?_
      · rwa [none, List.forall₂_nil_right_iff] at each
      · obtain ⟨s, listed, own⟩ := exists_of_forall₂ each member
        exact ih s listed fits.grouped own

theorem isNormal_default : Name.IsNormal Group.default.name :=
  Name.isNormal_of_normalise (show Name.normalise "default" = .ok "default" by decide +kernel)

/-- Building accepts no command that breaks a rule of structure. -/
theorem wellFormed_of_build {d : Draft α} {c : Command α} (run : d.build = .ok c) : c.WellFormed none :=
  wellFormed_of_buildUnder isNormal_default run

end Draft

end ChatCommands
