import ChatCommands.Proofs.Registry.Registration

namespace ChatCommands.Registry

variable {α : Type} {r : Registry α} {admitted : Group → Prop}

theorem Sound.resolve?_eq_some (sound : r.Sound) {above : List (Command α)} {c : Command α}
    (reach : r.Lineage above c) {path : String} :
    r.resolve? path = some c ↔ Command.Answer (above ++ [c]) (Text.words path) := by
  rw [resolve?, sound.follow?_eq_some]
  constructor
  · rintro ⟨above', reach', answer⟩
    rwa [reach.unique sound.distinct sound.formed reach']
  · exact fun answer => ⟨above, reach, answer⟩

theorem Sound.resolve?_fullName (sound : r.Sound) {above : List (Command α)} {c : Command α}
    (reach : r.Lineage above c) : r.resolve? c.fullName = some c := by
  rw [sound.resolve?_eq_some reach, reach.words_fullName sound.formed]
  exact reach.answer_names sound.formed

theorem Sound.eq_of_fullName (sound : r.Sound) {above above' : List (Command α)} {c c' : Command α}
    (reach : r.Lineage above c) (reach' : r.Lineage above' c') (same : c.fullName = c'.fullName) : c = c' :=
  Command.Lineage.eq_of_fullName sound.distinct sound.formed reach reach' same

/-- In a registry that any operations have led to, every command is found under its full name, and under
those paths only whose words, in any letter case, name it and the commands above it one by one. Nothing
else is ever found, and no two commands answer to one path, be they different or the same one twice. -/
theorem Reachable.resolves_exactly (reach : r.Reachable admitted) :
    (∀ {above c}, r.Lineage above c → r.resolve? c.fullName = some c ∧
      ∀ path, r.resolve? path = some c ↔ Command.Answer (above ++ [c]) (Text.words path)) ∧
    (∀ {path c}, r.resolve? path = some c → ∃ above, r.Lineage above c) ∧
    (∀ {above c above' c' path}, r.Lineage above c → r.Lineage above' c' →
      Command.Answer (above ++ [c]) (Text.words path) → Command.Answer (above' ++ [c']) (Text.words path) →
        above = above' ∧ c = c') ∧
    r.commands.Nodup ∧ ∀ {above c}, r.Lineage above c → c.children.Nodup := by
  have sound := reach.sound
  refine ⟨fun place => ⟨sound.resolve?_fullName place, fun path => sound.resolve?_eq_some place⟩, ?_, ?_,
    sound.distinct.nodup, fun place => (place.formed sound.formed).distinct.nodup⟩
  · intro path c found
    obtain ⟨above, place, _⟩ := sound.follow?_eq_some.mp found
    exact ⟨above, place⟩
  · intro above c above' c' path place place' answer answer'
    exact place.eq_of_answer sound.distinct sound.formed place' answer answer'

/-- The innermost command of the sample, called by aliases and in mixed letter case. -/
theorem Reachable.resolves_exactly_nested :
    Sample.registry.Reachable Group.Made ∧
      ∃ c, Sample.registry.resolve? "  g\tREMOTE new " = some c ∧ c.fullName = "git remote add" ∧
        Sample.registry.resolve? c.fullName = some c := by
  have found : (Sample.registry.resolve? "  g\tREMOTE new ").map (·.fullName) = some "git remote add" := by
    decide +kernel
  obtain ⟨c, resolved, named⟩ := Option.map_eq_some_iff.mp found
  have spec := Sample.reachable.resolves_exactly
  obtain ⟨above, place⟩ := spec.2.1 resolved
  exact ⟨Sample.reachable, c, resolved, named, (spec.1 place).1⟩

end ChatCommands.Registry
