import ChatCommands.Help
import ChatCommands.Proofs.Registry.Valid

namespace ChatCommands

variable {α : Type}

namespace Command

/-- Hidden, or for the owner alone. -/
def isSecret (c : Command α) : Bool := c.profile.hidden || c.profile.ownerOnly

mutual

/-- The command without the secret ones below it, at every depth. -/
def redact : Command α → Command α
  | .branch p children => .branch p (redactAll children)
  | .leaf p usage action => .leaf p usage action

def redactAll : List (Command α) → List (Command α)
  | [] => []
  | c :: rest => if c.isSecret then redactAll rest else c.redact :: redactAll rest

end

@[simp] theorem profile_redact (c : Command α) : c.redact.profile = c.profile := by
  cases c with
  | branch p children =>
    rw [redact]
    rfl
  | leaf p usage action =>
    rw [redact]

/-- Removal at every depth takes the same commands from the top as removal there alone. -/
theorem map_profile_redactAll (cs : List (Command α)) :
    (redactAll cs).map profile = (cs.filter fun c => !c.isSecret).map profile := by
  induction cs with
  | nil => rw [redactAll, List.filter_nil]
  | cons c rest ih =>
    rw [redactAll, List.filter_cons]
    cases secret : c.isSecret with
    | true => simpa using ih
    | false => simpa using ih

end Command

namespace Registry

/-- Without the secret commands at the top. -/
def unveiled (r : Registry α) : Registry α := { r with commands := r.commands.filter fun c => !c.isSecret }

/-- Without the secret commands, at every depth. -/
def redacted (r : Registry α) : Registry α := { r with commands := Command.redactAll r.commands }

end Registry

namespace Help

variable {r r' : Registry α} {viewerIsOwner : Bool} {lead : String} {c c' : Command α}

/-- Not hidden, and not for the owner alone unless the viewer is the owner. -/
def Shown (viewerIsOwner : Bool) (c : Command α) : Prop :=
  c.profile.hidden = false ∧ (c.profile.ownerOnly = true → viewerIsOwner = true)

instance : DecidablePred (Shown (α := α) viewerIsOwner) := fun c =>
  inferInstanceAs (Decidable (c.profile.hidden = false ∧ (c.profile.ownerOnly = true → viewerIsOwner = true)))

theorem visibleTo_iff : visibleTo viewerIsOwner c = true ↔ Shown viewerIsOwner c := by
  rw [visibleTo, Shown]
  cases c.profile.ownerOnly <;> simp

/-- What a viewer is shown of a group. -/
structure Section (α : Type) where
  group : Group
  commands : List (Command α)

/-- The title of the group, then a line for each command. A command for the owner alone is marked. -/
def Section.text (lead : String) (s : Section α) : String :=
  "__" ++ s.group.title ++ "__\n" ++ String.join (s.commands.map fun c =>
    "  `" ++ lead ++ c.name ++ "` - " ++ c.description ++ (if c.profile.ownerOnly then " (!)" else "") ++ "\n")

/-- The sections show the commands of the top level that the viewer may see, each of them once. -/
structure Shows (r : Registry α) (viewerIsOwner : Bool) (sections : List (Section α)) : Prop where
  groups : sections.map (·.group) =
    r.groups.filter fun g => decide (∃ c ∈ r.commands, Shown viewerIsOwner c ∧ c.profile.group = g.name)
  commands : ∀ s ∈ sections, s.commands =
    r.commands.filter fun c => decide (Shown viewerIsOwner c ∧ c.profile.group = s.group.name)
  shown : ∀ c, c ∈ sections.flatMap (·.commands) ↔ c ∈ r.commands ∧ Shown viewerIsOwner c
  once : (sections.flatMap (·.commands)).Nodup

/-- A section for each group, even if there is nothing to show in it. -/
def allSections (r : Registry α) (viewerIsOwner : Bool) : List (Section α) :=
  r.groups.map fun g => ⟨g, listed r viewerIsOwner g⟩

def sections (r : Registry α) (viewerIsOwner : Bool) : List (Section α) :=
  (allSections r viewerIsOwner).filter fun s => !s.commands.isEmpty

theorem mem_listed {g : Group} :
    c ∈ listed r viewerIsOwner g ↔ c ∈ r.commands ∧ Shown viewerIsOwner c ∧ c.profile.group = g.name := by
  rw [listed, List.mem_filter, Bool.and_eq_true, beq_iff_eq, visibleTo_iff]
  exact and_congr_right fun _ => and_comm

theorem listed_eq (g : Group) : listed r viewerIsOwner g =
    r.commands.filter fun c => decide (Shown viewerIsOwner c ∧ c.profile.group = g.name) := by
  refine List.filter_congr fun c _ => ?_
  rw [Bool.eq_iff_iff, decide_eq_true_iff, Bool.and_eq_true, beq_iff_eq, visibleTo_iff]
  exact and_comm

theorem mem_sections {s : Section α} : s ∈ sections r viewerIsOwner ↔
    s.group ∈ r.groups ∧ s.commands = listed r viewerIsOwner s.group ∧ s.commands ≠ [] := by
  obtain ⟨g, cs⟩ := s
  simp only [sections, allSections, List.mem_filter, List.mem_map, Section.mk.injEq, Bool.not_eq_true',
    List.isEmpty_eq_false_iff]
  constructor
  · rintro ⟨⟨g, member, rfl, rfl⟩, present⟩
    exact ⟨member, rfl, present⟩
  · rintro ⟨member, rfl, present⟩
    exact ⟨⟨g, member, rfl, rfl⟩, present⟩

theorem mem_flatMap_sections : c ∈ (sections r viewerIsOwner).flatMap (·.commands) ↔
    ∃ g ∈ r.groups, c ∈ listed r viewerIsOwner g := by
  rw [List.mem_flatMap]
  constructor
  · rintro ⟨s, member, inside⟩
    obtain ⟨registered, shown, _⟩ := mem_sections.mp member
    exact ⟨s.group, registered, shown ▸ inside⟩
  · rintro ⟨g, registered, inside⟩
    exact ⟨⟨g, _⟩, mem_sections.mpr ⟨registered, rfl, List.ne_nil_of_mem inside⟩, inside⟩

/-- A command stands in one section, as its group is named in lowercase. Two groups of one name may both have another
spelling, but then nothing is listed in either. -/
theorem nodup_flatMap_sections (sound : r.Sound) (apart : Registry.Apart r.groups) :
    ((sections r viewerIsOwner).flatMap (·.commands)).Nodup := by
  rw [List.nodup_flatMap]
  constructor
  · intro s member
    obtain ⟨_, shown, _⟩ := mem_sections.mp member
    rw [shown]
    exact sound.distinct.nodup.filter _
  · have all : (allSections r viewerIsOwner).Pairwise fun s s' => s.commands.Disjoint s'.commands := by
      refine List.pairwise_map.mpr (apart.imp fun {g later} differ c left right => differ ?_)
      obtain ⟨member, _, inEarlier⟩ := mem_listed.mp left
      obtain ⟨_, _, inLater⟩ := mem_listed.mp right
      have lowered := (sound.formed c member).fits.grouped.lowered
      rw [← inEarlier, ← inLater, lowered]
    exact all.filter _

theorem shows_sections (sound : r.Sound) (grouped : r.Grouped) :
    Shows r viewerIsOwner (sections r viewerIsOwner) := by
  refine ⟨?_, fun s member => ?_, fun c => ?_, nodup_flatMap_sections sound grouped.apart⟩
  · rw [sections, allSections, List.filter_map, List.map_map]
    refine (List.map_id _).trans (List.filter_congr fun g _ => ?_)
    rw [Bool.eq_iff_iff, decide_eq_true_iff]
    simp only [Function.comp_apply, Bool.not_eq_true', List.isEmpty_eq_false_iff_exists_mem, mem_listed]
  · obtain ⟨_, shown, _⟩ := mem_sections.mp member
    exact shown.trans (listed_eq _)
  · rw [mem_flatMap_sections]
    constructor
    · rintro ⟨g, _, inside⟩
      obtain ⟨member, shown, _⟩ := mem_listed.mp inside
      exact ⟨member, shown⟩
    · rintro ⟨member, shown⟩
      obtain ⟨g, registered, named⟩ := grouped.registered (.top member)
      exact ⟨g, registered, mem_listed.mpr ⟨member, shown, named.symm⟩⟩

theorem line_text : line lead c = "  `" ++ lead ++ c.name ++ "` - " ++ c.description ++
    (if c.profile.ownerOnly then " (!)" else "") ++ "\n" := by
  simp [line, toString, String.append_assoc]

theorem Section.text_eq (lead : String) (g : Group) (cs : List (Command α)) :
    Section.text lead ⟨g, cs⟩ = "__" ++ g.title ++ "__\n" ++ lines lead cs := by
  simp only [Section.text, lines, ← line_text]

theorem section?_eq (g : Group) : section? r lead viewerIsOwner g =
    if (listed r viewerIsOwner g).isEmpty then none
    else some (Section.text lead ⟨g, listed r viewerIsOwner g⟩) := by
  rw [section?]
  cases listed r viewerIsOwner g with
  | nil => simp
  | cons c cs => simp [Section.text_eq, toString]

theorem general_eq (r : Registry α) (lead : String) (viewerIsOwner : Bool) : general r lead viewerIsOwner =
    "**Bot Commands**\n" ++ ("(Use `" ++ lead ++ "help [command]` for more info on a single command)\n") ++
      String.join ((sections r viewerIsOwner).map (Section.text lead)) := by
  have parts : r.groups.filterMap (section? r lead viewerIsOwner) =
      (sections r viewerIsOwner).map (Section.text lead) := by
    rw [sections, allSections]
    induction r.groups with
    | nil => rfl
    | cons g rest ih =>
      rw [List.filterMap_cons, section?_eq, ih, List.map_cons, List.filter_cons]
      cases (listed r viewerIsOwner g).isEmpty <;> simp
  unfold general
  simp only [parts, toString, String.append_assoc]

/-- Two registries that differ in nothing that the viewer may see. -/
structure Alike (viewerIsOwner : Bool) (r r' : Registry α) : Prop where
  groups : r.groups = r'.groups
  profiles : (r.commands.filter (visibleTo viewerIsOwner)).map Command.profile =
    (r'.commands.filter (visibleTo viewerIsOwner)).map Command.profile

theorem lines_eq {cs cs' : List (Command α)} (same : cs.map Command.profile = cs'.map Command.profile) :
    lines lead cs = lines lead cs' := by
  have texts : cs.map (line lead) = cs'.map (line lead) := by
    induction cs generalizing cs' with
    | nil => rw [List.map_eq_nil_iff.mp same.symm]
    | cons c rest ih =>
      obtain ⟨c', rest', rfl, head, tail⟩ := List.map_eq_cons_iff.mp same.symm
      have first : line lead c' = line lead c := by
        simp only [line, Command.name, Command.description, head]
      rw [List.map_cons, List.map_cons, first, ih tail.symm]
  rw [lines, lines, texts]

theorem Alike.listed (alike : Alike viewerIsOwner r r') (g : Group) :
    (Help.listed r viewerIsOwner g).map Command.profile = (Help.listed r' viewerIsOwner g).map Command.profile := by
  have split : ∀ r : Registry α, (Help.listed r viewerIsOwner g).map Command.profile =
      ((r.commands.filter (visibleTo viewerIsOwner)).map Command.profile).filter (·.group == g.name) := by
    intro r
    rw [List.filter_map, List.filter_filter]
    rfl
  rw [split, split, alike.profiles]

/-- The texts for a viewer tell only what the viewer may see. -/
theorem Alike.ofGroup (alike : Alike viewerIsOwner r r') (lead : String) (g : Group) :
    Help.ofGroup r lead viewerIsOwner g = Help.ofGroup r' lead viewerIsOwner g := by
  rw [Help.ofGroup, Help.ofGroup, lines_eq (alike.listed g)]

theorem Alike.general (alike : Alike viewerIsOwner r r') (lead : String) :
    Help.general r lead viewerIsOwner = Help.general r' lead viewerIsOwner := by
  have parts : section? r lead viewerIsOwner = section? r' lead viewerIsOwner := by
    funext g
    have same := alike.listed g
    have none : (Help.listed r viewerIsOwner g).isEmpty = (Help.listed r' viewerIsOwner g).isEmpty := by
      rw [← List.isEmpty_map (f := Command.profile), same, List.isEmpty_map]
    rw [section?_eq, section?_eq, none, Section.text_eq, Section.text_eq, lines_eq same]
  unfold Help.general
  simp only [parts, alike.groups]

theorem Alike.trans {r'' : Registry α} (first : Alike viewerIsOwner r r') (second : Alike viewerIsOwner r' r'') :
    Alike viewerIsOwner r r'' :=
  ⟨first.groups.trans second.groups, first.profiles.trans second.profiles⟩

theorem alike_of_profiles (groups : r.groups = r'.groups)
    (profiles : r.commands.map Command.profile = r'.commands.map Command.profile) : Alike viewerIsOwner r r' := by
  have shown : ∀ r : Registry α, (r.commands.filter (visibleTo viewerIsOwner)).map Command.profile =
      (r.commands.map Command.profile).filter fun p => !p.hidden && (!p.ownerOnly || viewerIsOwner) := by
    intro r
    rw [List.filter_map]
    rfl
  exact ⟨groups, by rw [shown, shown, profiles]⟩

theorem alike_unveiled (r : Registry α) : Alike false r r.unveiled := by
  have plain : visibleTo false = fun c : Command α => !c.isSecret := by
    funext c
    rw [visibleTo, Command.isSecret, Bool.or_false, Bool.not_or]
  refine ⟨rfl, ?_⟩
  simp only [Registry.unveiled, plain, List.filter_filter, Bool.and_self]

theorem alike_redacted (r : Registry α) : Alike false r r.redacted := by
  have tops : r.unveiled.commands.map Command.profile = r.redacted.commands.map Command.profile :=
    (Command.map_profile_redactAll r.commands).symm
  exact (alike_unveiled r).trans (alike_of_profiles rfl tops)

end Help

namespace Registry

open Help

variable {r : Registry α} {admitted : Group → Prop}

/-- The listing shows what the viewer may see and nothing else. To anyone but the owner it reads as if the secret
commands did not exist, and so does the help of each group. -/
theorem Reachable.listing_shows_visible (reach : r.Reachable admitted) (lead : String) :
    (∀ viewerIsOwner, ∃ sections, Shows r viewerIsOwner sections ∧ general r lead viewerIsOwner =
      "**Bot Commands**\n" ++ ("(Use `" ++ lead ++ "help [command]` for more info on a single command)\n") ++
        String.join (sections.map (Section.text lead))) ∧
    (general r lead false = general r.unveiled lead false ∧ general r lead false = general r.redacted lead false) ∧
    ∀ g, ofGroup r lead false g = ofGroup r.unveiled lead false g ∧
      ofGroup r lead false g = ofGroup r.redacted lead false g := by
  have unveiled := alike_unveiled r
  have redacted := alike_redacted r
  refine ⟨fun viewerIsOwner => ⟨_, shows_sections reach.sound reach.grouped, general_eq r lead viewerIsOwner⟩, ?_, ?_⟩
  · exact ⟨unveiled.general lead, redacted.general lead⟩
  · exact fun g => ⟨unveiled.ofGroup lead g, redacted.ofGroup lead g⟩

namespace Sample

/-- It is hidden, and alone in its group. -/
def spell : Draft Unit where
  name := "spell"
  group? := some "magic"
  hidden := true
  documentation := ⟨"Cast a spell", none, []⟩
  action? := some ()

def magic : Group := ⟨"magic", "Magic", "Magic"⟩

/-- It is not named in the letter case of lookups. -/
def potions : Group := ⟨"Potions", "Potions", "Potions"⟩

/-- The sample registry with the built-in commands, of which one is for the owner, a hidden command, and a group that
is added twice. -/
def enchanted : Registry Unit :=
  [Registration.groups [magic, potions, potions], .draft spell, .builtins ⟨(), (), ()⟩].foldl
    (fun r op => (r.register op).1) registry

theorem reachable_enchanted : enchanted.Reachable fun _ => True := by
  have registry : registry.Reachable fun _ => True := .step (.step (.step .new trivial) trivial) trivial
  exact .step (.step (.step registry fun _ _ => trivial) trivial) trivial

end Sample

/-- The owner is shown one command more, and nobody the hidden one, whose group has no section. Nor has either of the
two groups of one name. -/
theorem Reachable.listing_shows_visible_enchanted :
    (Sample.enchanted.Reachable fun _ => True) ∧
      Sample.enchanted.groups.map (·.name) = ["default", "tools", "magic", "Potions", "Potions", "util"] ∧
      (Sample.enchanted.commands.filter (·.isSecret)).map (·.name) = ["spell", "shutdown"] ∧
      (∃ sections, Shows Sample.enchanted true sections ∧
        sections.map (fun s => (s.group.name, s.commands.map (·.name))) =
          [("tools", ["git"]), ("util", ["ping", "help", "shutdown"])]) ∧
      general Sample.enchanted "!" false = general Sample.enchanted.redacted "!" false ∧
      ofGroup Sample.enchanted "!" false Sample.magic = ofGroup Sample.enchanted.redacted "!" false Sample.magic := by
  obtain ⟨shows, ⟨_, silent⟩, groups⟩ := Sample.reachable_enchanted.listing_shows_visible "!"
  obtain ⟨sections, shown, _⟩ := shows true
  have each : sections.map (fun s => (s.group.name, s.commands.map (·.name))) =
      (sections.map (·.group)).map fun g => (g.name, (Sample.enchanted.commands.filter fun c =>
        decide (Shown true c ∧ c.profile.group = g.name)).map (·.name)) := by
    rw [List.map_map]
    refine List.map_congr_left fun s member => ?_
    rw [shown.commands s member]
    rfl
  have names := each.trans (congrArg (List.map _) shown.groups)
  refine ⟨Sample.reachable_enchanted, by decide +kernel, by decide +kernel,
    ⟨sections, shown, names.trans ?_⟩, silent, (groups _).2⟩
  decide +kernel

end Registry

end ChatCommands
