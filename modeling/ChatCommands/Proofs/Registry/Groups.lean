import ChatCommands.Load
import ChatCommands.Proofs.Format.Config
import ChatCommands.Proofs.Registry.Valid

namespace ChatCommands

open ChatCommands.Json

/-- The groups that can be had at all. Those that are made have a normal name, those that are read have any name. -/
inductive Group.Obtained : Group → Prop
  | make {name description g} : Group.make name description = .ok g → Obtained g
  | default : Obtained Group.default
  | read {reading g} : Group.read reading = .ok g → Obtained g
  | titled {g} (title : String) : Obtained g → Obtained { g with title }

theorem Group.Made.obtained {g : Group} (made : g.Made) : g.Obtained := by
  obtain ⟨name, description, plain, run, shape⟩ := made
  rw [shape]
  exact .titled g.title (.make run)

theorem Group.readsAs {bound : Nat} (g : Group) : g.toJson.ReadsAs bound read g := by
  have filled : Fills bound fields _ (g.name, g.description, g.title, ()) :=
    .cons (.string g.name) (.cons (.string g.description) (.cons (.string g.title) .nil))
  exact ReadsAs.record filled (by decide) fun _ run => bind_eq_ok.mpr ⟨_, run, rfl⟩

/-- No rule holds of all groups, as each can be read from its JSON form. -/
theorem Group.obtained (g : Group) : g.Obtained := .read (ReadsAs.reads (fun _ => g.readsAs) (.refl _))

namespace Registry

variable {α : Type} {r : Registry α}

/-- A group is found by its own name just when lookups can spell that. No earlier group is in the way. -/
theorem group?_name (apart : Apart r.groups) {g : Group} (member : g ∈ r.groups) :
    r.group? g.name = some g ↔ Text.lower g.name = g.name := by
  constructor
  · intro found
    exact (mem_of_group? found).2.symm
  · intro lowered
    obtain ⟨before, after, shape⟩ := List.append_of_mem member
    rw [Apart, shape, List.pairwise_append] at apart
    rw [group?, lowered, shape]
    refine List.find?_eq_some_iff_append.mpr ⟨beq_self_eq_true _, before, after, rfl, fun other earlier => ?_⟩
    have differs := apart.2.2 other earlier g (List.mem_cons_self ..)
    rw [lowered] at differs
    simpa using differs

/-- The groups of a registry have distinct names and are found by them just when these are in the letter case of
lookups. So are all names of groups that are made, but not all names that are read. -/
theorem Reachable.groups_told_apart (reach : r.Reachable Group.Obtained) :
    ((r.groups.map (·.name)).Nodup ∧ (∀ g ∈ r.groups, r.group? g.name = some g) ↔
      ∀ g ∈ r.groups, Text.lower g.name = g.name) ∧
    ∀ g : Group, g.Made → Text.lower g.name = g.name := by
  have apart := reach.grouped.apart
  refine ⟨⟨fun ⟨_, found⟩ g member => ?_, fun lowered => ⟨apart.nodup lowered, fun g member => ?_⟩⟩, fun g made => ?_⟩
  · exact (group?_name apart member).mp (found g member)
  · exact (group?_name apart member).mpr (lowered g member)
  · exact made.normal.lowered

namespace Sample

def games : Group := ⟨"games", "Games", "All games"⟩

theorem games_obtained : games.Obtained := by
  have run : Group.make "Games" "Games" = .ok ⟨"games", "Games", "Games"⟩ := by decide +kernel
  exact .titled "All games" (.make run)

def jsonText (name : String) : String :=
  "\x7b\"name\":\"" ++ name ++ "\",\"description\":\"Tools\",\"display_name\":\"Tools\"\x7d"

theorem read_lower : parseAs Group.read inlinePath (jsonText "tools") = .ok tools := by decide +kernel

/-- A group whose name is not in the letter case of lookups. -/
def capital : Group := ⟨"Tools", "Tools", "Tools"⟩

theorem read_capital : parseAs Group.read inlinePath (jsonText "Tools") = .ok capital := by decide +kernel

/-- The registry with two groups, after one more attempt to add them. -/
def grouped : Registry Unit :=
  [.groups [games, tools], .group tools].foldl (fun r op => (r.register op).1) .new

theorem grouped_reachable : grouped.Reachable Group.Obtained := by
  have tools_obtained : tools.Obtained := .read (parseAs_eq_ok.mp read_lower).1
  have both : ∀ g ∈ [games, tools], g.Obtained :=
    List.forall_mem_cons.mpr ⟨games_obtained, List.forall_mem_singleton.mpr tools_obtained⟩
  exact .step (.step .new both) tools_obtained

/-- The registry to which one group is added twice. -/
def twice : Registry Unit := [.group capital, .group capital].foldl (fun r op => (r.register op).1) .new

theorem twice_reachable : twice.Reachable Group.Obtained :=
  .step (.step .new capital.obtained) capital.obtained

end Sample

/-- A group that is made and one that is read, in the letter case of lookups. -/
theorem Reachable.groups_told_apart_lowered :
    Sample.grouped.Reachable Group.Obtained ∧
      Sample.grouped.groups.map (·.name) = ["default", "games", "tools"] ∧
      (Sample.grouped.groups.map (·.name)).Nodup ∧
      ∀ g ∈ Sample.grouped.groups, Sample.grouped.group? g.name = some g := by
  have lowered : ∀ g ∈ Sample.grouped.groups, Text.lower g.name = g.name := by decide +kernel
  obtain ⟨distinct, found⟩ := (Reachable.groups_told_apart Sample.grouped_reachable).1.mpr lowered
  exact ⟨Sample.grouped_reachable, by decide +kernel, distinct, found⟩

/-- A group is added twice under a name that was read, and is not found by it. -/
theorem group_read_added_twice :
    (¬∀ r : Registry Unit, r.Reachable Group.Obtained → (r.groups.map (·.name)).Nodup) ∧
    (¬∀ r : Registry Unit, r.Reachable Group.Obtained → ∀ g ∈ r.groups, r.group? g.name = some g) ∧
    parseAs Group.read inlinePath (Sample.jsonText "Tools") = .ok Sample.capital ∧
    Sample.twice.groups = [Group.default, Sample.capital, Sample.capital] ∧
    Sample.twice.group? Sample.capital.name = none := by
  have groups : Sample.twice.groups = [Group.default, Sample.capital, Sample.capital] := by decide +kernel
  have unknown : Sample.twice.group? Sample.capital.name = none := by decide +kernel
  refine ⟨fun always => ?_, fun always => ?_, Sample.read_capital, groups, unknown⟩
  · have distinct := always Sample.twice Sample.twice_reachable
    rw [groups] at distinct
    revert distinct
    decide
  · have member : Sample.capital ∈ Sample.twice.groups := by
      rw [groups]
      exact List.mem_cons_of_mem _ (List.mem_cons_self ..)
    have found := always _ Sample.twice_reachable _ member
    rw [unknown] at found
    cases found

end Registry

end ChatCommands
