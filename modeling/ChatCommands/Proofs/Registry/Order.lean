import Mathlib.Data.List.Perm.Basic
import ChatCommands.Proofs.Registry.Resolve
import ChatCommands.Proofs.Registry.Valid

namespace ChatCommands

namespace Command

variable {α : Type} {siblings others : List (Command α)}

theorem Distinct.perm (distinct : Distinct siblings) (perm : siblings.Perm others) : Distinct others :=
  (perm.flatMap_right names).nodup_iff.mp distinct

/-- The command that a token names does not depend on the order in which distinct siblings stand. -/
theorem Distinct.find?_perm (distinct : Distinct siblings) (perm : siblings.Perm others) (token : String) :
    find? others token = find? siblings token := by
  refine Option.ext fun c => ?_
  rw [find?_eq_some (distinct.perm perm), find?_eq_some distinct, perm.mem_iff]

theorem Distinct.apart {later : List (Command α)} (distinct : Distinct (siblings ++ later)) {b c : Command α}
    {name : String} (left : b ∈ siblings) (right : c ∈ later) (ofLeft : name ∈ b.names) : name ∉ c.names := by
  intro ofRight
  rw [Distinct, List.flatMap_append] at distinct
  have first := List.mem_flatMap.mpr ⟨b, left, ofLeft⟩
  have last := List.mem_flatMap.mpr ⟨c, right, ofRight⟩
  exact (List.nodup_append.mp distinct).2.2 name first name last rfl

end Command

namespace Registry

variable {α : Type} {r after : Registry α} {admitted : Group → Prop} {c : Command α}

/-- The names of a command are free at the top exactly when it is told apart from all that is there. -/
theorem Sound.free_iff (sound : r.Sound) (formed : c.WellFormed none) :
    (∀ name ∈ c.names, r.command? name = none) ↔ Command.Distinct (r.commands ++ [c]) := by
  constructor
  · exact fun free => (sound.command formed free).distinct
  · intro distinct name named
    refine Command.find?_eq_none.mpr fun b member => ?_
    rw [(formed.fits.normal name named).lowered, Bool.eq_false_iff, ne_eq, Command.answersTo_iff]
    exact fun shared => distinct.apart member (List.mem_singleton_self c) shared named

theorem addDraft_eq_ok (sound : r.Sound) {d : Draft α} :
    r.addDraft d = .ok after ↔ ∃ c, d.build = .ok c ∧ r.checkGroups c = .ok () ∧
      Command.Distinct (r.commands ++ [c]) ∧ after = { r with commands := r.commands ++ [c] } := by
  rw [addDraft, bind_eq_ok]
  refine exists_congr fun c => and_congr_right fun built => ?_
  rw [addCommand_eq_ok, sound.free_iff (Draft.wellFormed_of_build built)]
  exact and_left_comm

theorem Sound.addDraft (sound : r.Sound) {d : Draft α} (run : r.addDraft d = .ok after) : after.Sound := by
  have grows : Grows (fun _ => True) r after := grows_addDraft run
  exact grows.sound sound

/-- Drafts are all added, one by one, exactly when each is built into a command whose groups are there, and
all of the commands, with those that were there before, are told apart by their names. The last condition says
nothing of their order, though every draft is compared only with those before it. -/
theorem addDrafts_eq_ok (sound : r.Sound) {ds : List (Draft α)} :
    r.addDrafts ds = (after, none) ↔ ∃ cs, List.Forall₂ (fun d c => d.build = .ok c) ds cs ∧
      (∀ c ∈ cs, r.checkGroups c = .ok ()) ∧ Command.Distinct (r.commands ++ cs) ∧
      after = { r with commands := r.commands ++ cs } := by
  induction ds generalizing r with
  | nil =>
    rw [addDrafts]
    simp only [List.forall₂_nil_left_iff, Prod.mk.injEq, and_true, exists_eq_left, List.append_nil]
    constructor
    · exact fun same => ⟨List.forall_mem_nil _, sound.distinct, same.symm⟩
    · rintro ⟨_, _, rfl⟩
      rfl
  | cons d rest ih =>
    rw [addDrafts]
    simp only [List.forall₂_cons_left_iff]
    constructor
    · intro run
      cases added : r.addDraft d with
      | error e =>
        rw [added] at run
        cases run
      | ok between =>
        rw [added] at run
        obtain ⟨c, built, checked, _, rfl⟩ := (addDraft_eq_ok sound).mp added
        have sound' := sound.addDraft added
        obtain ⟨cs, builts, checks, distinct, rfl⟩ := (ih sound').mp run
        simp only [checkGroups_with] at checks
        refine ⟨_, ⟨c, cs, built, builts, rfl⟩, List.forall_mem_cons.mpr ⟨checked, checks⟩, ?_⟩
        rw [List.append_cons]
        exact ⟨distinct, rfl⟩
    · rintro ⟨_, ⟨c, cs, built, builts, rfl⟩, checks, distinct, rfl⟩
      obtain ⟨checked, others⟩ := List.forall_mem_cons.mp checks
      rw [List.append_cons] at distinct
      have first : Command.Distinct (r.commands ++ [c]) :=
        List.Nodup.of_append_left (by rwa [Command.Distinct, List.flatMap_append] at distinct)
      have added := (addDraft_eq_ok sound).mpr ⟨c, built, checked, first, rfl⟩
      have sound' := sound.addDraft added
      rw [added]
      refine (ih sound').mpr ⟨cs, builts, fun b member => ?_, distinct, by rw [List.append_cons]⟩
      rw [checkGroups_with]
      exact others b member

/-- From the same drafts in another order come the same commands in another order. -/
theorem addDrafts_perm (sound : r.Sound) {ds ds' : List (Draft α)} (perm : ds.Perm ds')
    (run : r.addDrafts ds = (after, none)) :
    ∃ after', r.addDrafts ds' = (after', none) ∧ after.commands.Perm after'.commands := by
  obtain ⟨cs, built, checked, distinct, rfl⟩ := (addDrafts_eq_ok sound).mp run
  obtain ⟨cs', built', perm'⟩ := List.perm_comp_forall₂ perm.symm built
  have whole := perm'.symm.append_left r.commands
  refine ⟨{ r with commands := r.commands ++ cs' }, (addDrafts_eq_ok sound).mpr ?_, whole⟩
  exact ⟨cs', built', fun c member => checked c (perm'.mem_iff.mp member), distinct.perm whole, rfl⟩

/-- Paths lead to the same commands when the names of top-level commands do. -/
theorem resolve?_of_command? {r' : Registry α} (same : ∀ token, r'.command? token = r.command? token)
    (path : String) : r'.resolve? path = r.resolve? path := by
  rw [resolve?, resolve?]
  cases Text.words path with
  | nil => rfl
  | cons token rest => rw [follow?, follow?, same]

/-- Commands can be registered in any order. If all of them are accepted in one order, they are in every other,
and no name and no path then leads anywhere else. -/
theorem Reachable.registration_commutes (reach : r.Reachable admitted) {ds ds' : List (Draft α)}
    (perm : ds.Perm ds') :
    ((r.addDrafts ds).2 = none ↔ (r.addDrafts ds').2 = none) ∧
    ((r.addDrafts ds).2 = none →
      (∀ path, (r.addDrafts ds').1.resolve? path = (r.addDrafts ds).1.resolve? path) ∧
      ∀ token, (r.addDrafts ds').1.command? token = (r.addDrafts ds).1.command? token) := by
  have sound := reach.sound
  have reorders {xs ys : List (Draft α)} (order : xs.Perm ys) (all : (r.addDrafts xs).2 = none) :
      ∃ after, r.addDrafts ys = (after, none) ∧ (r.addDrafts xs).1.commands.Perm after.commands :=
    addDrafts_perm sound order (Prod.ext rfl all)
  refine ⟨⟨fun all => ?_, fun all => ?_⟩, fun all => ?_⟩
  · obtain ⟨_, run, _⟩ := reorders perm all
    rw [run]
  · obtain ⟨_, run, _⟩ := reorders perm.symm all
    rw [run]
  · obtain ⟨after, run, order⟩ := reorders perm all
    have grown : Grows (fun _ => True) r (r.addDrafts ds).1 := grows_addDrafts
    have names (token : String) : after.command? token = (r.addDrafts ds).1.command? token :=
      (grown.sound sound).distinct.find?_perm order token
    rw [run]
    exact ⟨resolve?_of_command? names, names⟩

namespace Sample

def search : Draft Unit where
  name := "Grep"
  aliases := ["find"]
  documentation := ⟨"Search", none, []⟩
  action? := some ()

def history : Draft Unit where
  name := "log"
  documentation := ⟨"What was done", none, []⟩
  subcommands := [{ name := "find", documentation := ⟨"Search it", none, []⟩, action? := some () }]

end Sample

/-- Two commands, of which one has an alias that the other has for a subcommand. -/
theorem Reachable.registration_commutes_two :
    Sample.registry.Reachable Group.Made ∧ [Sample.search, Sample.history].Perm [Sample.history, Sample.search] ∧
      (Sample.registry.addDrafts [Sample.search, Sample.history]).2 = none ∧
      (Sample.registry.addDrafts [Sample.history, Sample.search]).2 = none ∧
      ((Sample.registry.addDrafts [Sample.search, Sample.history]).1.resolve? "FIND").map (·.fullName) =
        some "grep" ∧
      ((Sample.registry.addDrafts [Sample.history, Sample.search]).1.resolve? "FIND").map (·.fullName) =
        some "grep" := by
  have perm : [Sample.search, Sample.history].Perm [Sample.history, Sample.search] := .swap ..
  have all : (Sample.registry.addDrafts [Sample.search, Sample.history]).2 = none := by decide +kernel
  have found : ((Sample.registry.addDrafts [Sample.search, Sample.history]).1.resolve? "FIND").map (·.fullName) =
      some "grep" := by decide +kernel
  obtain ⟨accepted, same⟩ := Sample.reachable.registration_commutes perm
  exact ⟨Sample.reachable, perm, all, accepted.mp all, found, by rw [(same all).1, found]⟩

end Registry

end ChatCommands
