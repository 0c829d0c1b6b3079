import ChatCommands.Proofs.Dispatch.Descend
import ChatCommands.Proofs.Help
import ChatCommands.Proofs.Registry.Resolve

namespace ChatCommands

/-- What a message comes to before any action runs: an outcome at once, or the action that is to run. -/
inductive Verdict (α : Type) where
  | settled (outcome : Outcome)
  | run (inv : Invocation α) (command : String) (action : α) (values : List String)

/-- The command of an ending stands in a registry. -/
def Ending.Within {α : Type} (r : Registry α) : Ending α → Prop
  | run c _ | leafUsage c | branchUsage c => ∃ above, r.Lineage above c
  | notFound => True

namespace Bot

open Talk

variable {α : Type} {bot : Bot α} {message : Message}

/-- The handling of a message up to the point where an action runs. -/
def dispatch (bot : Bot α) (message : Message) : Talk CommandError (Verdict α) := do
  match ← bot.receive message with
  | .settled outcome => return .settled outcome
  | .admitted inv c tokens =>
    match ← inv.descend c tokens with
    | .refused => return .settled .rejected
    | .arrived command action values => return .run inv command action values

def carryOut (bot : Bot α) : Verdict α → Talk CommandError Outcome
  | .settled outcome => return outcome
  | .run inv command action values => do
    Talk.orElseAs (.action command) (bot.perform action inv values)
    return .handled

/-- Handling a message is to dispatch it, and to run the action to which that leads. -/
theorem handle_eq : bot.handle message = bot.dispatch message >>= bot.carryOut := by
  unfold handle dispatch
  rw [bind_assoc]
  refine bind_congr fun admission => ?_
  cases admission with
  | settled outcome => rw [pure_bind]; rfl
  | admitted inv c tokens =>
    unfold execute
    simp only [bind_assoc]
    refine bind_congr fun descent => ?_
    cases descent with
    | refused => simp only [pure_bind]; rfl
    | arrived command action values =>
      simp only [bind_assoc, pure_bind]
      rfl

theorem clears_answer {content : String} :
    (receive.answer message content).Clears fun sent _ => sent = [(message.channel, content)] := by
  unfold receive.answer
  refine clears_send.bind fun told => ?_
  subst told
  exact .pure rfl

theorem clears_receive {text token : String} {rest : List String} (human : message.authorIsBot = false)
    (taken : bot.text? message = some text) (tokens : Text.words text = token :: rest)
    (owner : ∀ c, bot.registry.command? token = some c → c.profile.ownerOnly = true →
      message.author = bot.config.owner) :
    (bot.receive message).Clears fun sent admission =>
      match bot.registry.command? token with
      | none => admission = .settled .notFound
      | some c => sent = [] ∧ ∃ time,
          admission = .admitted ⟨bot.registry, bot.config, message, time⟩ c rest := by
  obtain ⟨remaining, cut, left⟩ :
      ∃ remaining, Text.cut? text = some (token, remaining) ∧ Text.words remaining = rest := by
    rcases Text.cut?_cases text with ⟨none, _⟩ | ⟨head, remaining, split, cut⟩
    · rw [tokens] at none
      cases none
    · rw [tokens] at split
      cases split
      exact ⟨remaining, cut, rfl⟩
  unfold receive
  rw [human, taken]
  simp only [Bool.false_eq_true, if_false, Option.bind_eq_bind, Option.bind_some, cut]
  refine clears_isBot.bind fun answered => ?_
  obtain ⟨rfl, rfl⟩ := answered
  simp only [Bool.false_eq_true, if_false]
  cases top : bot.registry.command? token with
  | none =>
    refine clears_answer.bind fun _ => ?_
    exact .pure rfl
  | some c =>
    have passes : (c.profile.ownerOnly && message.author != bot.config.owner) = false := by
      cases only : c.profile.ownerOnly with
      | false => rfl
      | true => simp [owner c top only]
    simp only [passes, Bool.false_eq_true, if_false, left]
    have admitted : Clears
        (do
          let time ← service .clock
          return .admitted ⟨bot.registry, bot.config, message, time⟩ c rest : Talk CommandError (Admission α))
        fun sent admission => sent = [] ∧ ∃ time,
          admission = .admitted ⟨bot.registry, bot.config, message, time⟩ c rest := by
      refine clears_clock.bind fun silent => ?_
      subst silent
      exact .pure ⟨rfl, _, rfl⟩
    cases c.profile.dmAllowed with
    | true => exact admitted
    | false =>
      refine clears_isDirect.bind fun answered => ?_
      obtain ⟨rfl, rfl⟩ := answered
      exact admitted

/-- How the dispatch of a message shows its ending: by what it sends, and by its verdict. -/
def Shows (bot : Bot α) (message : Message) (sent : List (ChannelId × String)) (verdict : Verdict α) :
    Ending α → Prop
  | .run c values => sent = [] ∧ ∃ profile usage action time, c = .leaf profile usage action ∧
      verdict = .run ⟨bot.registry, bot.config, message, time⟩ c.fullName action values
  | .leafUsage c => c.usage?.isSome = true ∧ verdict = .settled .rejected ∧
      sent = [(message.channel, Help.leafUsage bot.config.lead c)]
  | .branchUsage c => c.usage? = none ∧ verdict = .settled .rejected ∧
      sent = [(message.channel, Help.branchUsage bot.config.lead c)]
  | .notFound => verdict = .settled .notFound

/-- A message that nothing stands in the way of is dispatched as its tokens tell. -/
theorem clears_dispatch {text token : String} {rest : List String} (human : message.authorIsBot = false)
    (taken : bot.text? message = some text) (tokens : Text.words text = token :: rest)
    (owner : ∀ c, bot.registry.command? token = some c → c.profile.ownerOnly = true →
      message.author = bot.config.owner) :
    (bot.dispatch message).Clears fun sent verdict =>
      bot.Shows message sent verdict (bot.registry.ending (token :: rest)) := by
  unfold dispatch
  refine (clears_receive human taken tokens owner).bind fun received => ?_
  cases top : bot.registry.command? token with
  | none =>
    simp only [top] at received
    subst received
    rw [Registry.ending_of_missing top]
    exact .pure rfl
  | some c =>
    simp only [top] at received
    obtain ⟨rfl, time, rfl⟩ := received
    rw [Registry.ending_of_found top]
    refine Invocation.clears_descend.bind fun told => ?_
    cases shape : c.endingBelow rest with
    | run d values =>
      rw [shape] at told
      obtain ⟨rfl, profile, usage, action, rfl, rfl⟩ := told
      exact .pure ⟨rfl, profile, usage, action, time, rfl, rfl⟩
    | leafUsage d =>
      rw [shape] at told
      obtain ⟨leaf, rfl, rfl⟩ := told
      exact .pure ⟨leaf, rfl, rfl⟩
    | branchUsage d =>
      rw [shape] at told
      obtain ⟨branch, rfl, rfl⟩ := told
      exact .pure ⟨branch, rfl, rfl⟩
    | notFound =>
      rw [shape] at told
      exact told.elim

/-- An answer that ends in the hint to a command's help shows which command it is about. -/
theorem eq_of_explained (sound : bot.registry.Sound) {c c' : Command α}
    (within : ∃ above, bot.registry.Lineage above c) (within' : ∃ above, bot.registry.Lineage above c')
    {channel : ChannelId} {text text' lead : String} (hinted : ∃ front, text = front ++ Help.hint lead c)
    (hinted' : ∃ front, text' = front ++ Help.hint lead c') (same : [(channel, text)] = [(channel, text')]) :
    c = c' := by
  obtain ⟨above, reach⟩ := within
  obtain ⟨above', reach'⟩ := within'
  obtain ⟨front, rfl⟩ := hinted
  obtain ⟨front', rfl⟩ := hinted'
  have texts := (Prod.mk.inj (List.cons.inj same).1).2
  have plain := reach.capital_not_mem sound.formed
  have plain' := reach'.capital_not_mem sound.formed
  exact sound.eq_of_fullName reach reach' (Help.fullName_eq_of_hint plain plain' texts)

/-- What is sent, and the verdict, show no two endings. -/
theorem Shows.unique (sound : bot.registry.Sound) {sent : List (ChannelId × String)} {verdict : Verdict α}
    {e e' : Ending α} (within : e.Within bot.registry) (within' : e'.Within bot.registry)
    (shows : bot.Shows message sent verdict e) (shows' : bot.Shows message sent verdict e') : e = e' := by
  cases e with
  | run c values =>
    obtain ⟨_, profile, usage, action, time, rfl, rfl⟩ := shows
    cases e' with
    | run c' values' =>
      obtain ⟨_, profile', usage', action', time', rfl, same⟩ := shows'
      obtain ⟨_, named, _, rfl⟩ := Verdict.run.inj same
      obtain ⟨above, reach⟩ := within
      obtain ⟨above', reach'⟩ := within'
      rw [sound.eq_of_fullName reach reach' named]
    | leafUsage c' => cases shows'.2.1
    | branchUsage c' => cases shows'.2.1
    | notFound => cases shows'
  | leafUsage c =>
    obtain ⟨leaf, rfl, rfl⟩ := shows
    have hinted := Help.exists_front_leafUsage bot.config.lead c
    cases e' with
    | run c' values' => cases shows'.1
    | leafUsage c' =>
      rw [eq_of_explained sound within within' hinted (Help.exists_front_leafUsage _ c') shows'.2.2]
    | branchUsage c' =>
      have same := eq_of_explained sound within within' hinted (Help.exists_front_branchUsage _ c') shows'.2.2
      rw [same, shows'.1] at leaf
      cases leaf
    | notFound => cases shows'
  | branchUsage c =>
    obtain ⟨branch, rfl, rfl⟩ := shows
    have hinted := Help.exists_front_branchUsage bot.config.lead c
    cases e' with
    | run c' values' => cases shows'.1
    | leafUsage c' =>
      have same := eq_of_explained sound within within' hinted (Help.exists_front_leafUsage _ c') shows'.2.2
      have leaf := shows'.1
      rw [← same, branch] at leaf
      cases leaf
    | branchUsage c' =>
      rw [eq_of_explained sound within within' hinted (Help.exists_front_branchUsage _ c') shows'.2.2]
    | notFound => cases shows'
  | notFound =>
    cases shows
    cases e' with
    | run c' values' =>
      obtain ⟨_, _, _, _, _, _, same⟩ := shows'
      cases same
    | leafUsage c' => cases shows'.2.1
    | branchUsage c' => cases shows'.2.1
    | notFound => rfl

theorem within_of_ends (sound : bot.registry.Sound) {tokens : List String} {e : Ending α}
    (ends : bot.registry.Ends tokens e) : e.Within bot.registry := by
  have placed : ∀ {path c}, bot.registry.resolve? path = some c → ∃ above, bot.registry.Lineage above c := by
    intro path c found
    obtain ⟨above, reach, _⟩ := sound.follow?_eq_some.mp found
    exact ⟨above, reach⟩
  cases e with
  | run c values =>
    obtain ⟨_, _, _, _, found, _⟩ := ends
    exact placed found
  | leafUsage c =>
    obtain ⟨_, _, _, _, _, found, _⟩ := ends
    exact placed found
  | branchUsage c =>
    obtain ⟨_, _, _, found, _⟩ := ends
    exact placed found
  | notFound => trivial

/-- Dispatch agrees with resolving paths and matching tokens. The tokens are those of the text behind the
lead; a run in which nobody is a bot, no channel is a direct one, nothing fails and no budget is used up
shows those endings that the tokens have. -/
structure Agrees (bot : Bot α) (message : Message) (tokens : List String) : Prop where
  /-- Handling goes on from dispatch with the action that the verdict names, and with nothing else. -/
  handled : bot.handle message = bot.dispatch message >>= bot.carryOut
  runs : ∃ log result, (bot.dispatch message).run.Held log result ∧ ∀ e ∈ log, e.Clear
  shows : ∀ log result, (bot.dispatch message).run.Held log result → (∀ e ∈ log, e.Clear) →
    ∃ verdict, result = .ok verdict ∧ ∀ ending : Ending α, ending.Within bot.registry →
      (bot.Shows message (sentBy log) verdict ending ↔ bot.registry.Ends tokens ending)
  one : ∃ ending, ending.Within bot.registry ∧ ∀ other, bot.registry.Ends tokens other ↔ other = ending
  leaf : ∀ {k j c b u v}, k < tokens.length → j < tokens.length →
    bot.registry.resolve? (" ".intercalate (tokens.take (k + 1))) = some c → c.usage? = some u →
    bot.registry.resolve? (" ".intercalate (tokens.take (j + 1))) = some b → b.usage? = some v → k = j
  /-- The letter case of the tokens that make up the path does not count. -/
  folded : ∀ {before others later c}, before ++ later = tokens → (∀ t ∈ others, Text.IsWord t) →
    others.map Text.lower = before.map Text.lower →
    bot.registry.resolve? (" ".intercalate before) = some c → ∀ ending,
      (bot.registry.Ends (others ++ later) ending ↔ bot.registry.Ends tokens ending)

theorem dispatch_agrees {admitted : Group → Prop} (reach : bot.registry.Reachable admitted)
    {text token : String} {rest : List String} (human : message.authorIsBot = false)
    (taken : bot.text? message = some text) (split : Text.words text = token :: rest)
    (owner : ∀ c, bot.registry.command? token = some c → c.profile.ownerOnly = true →
      message.author = bot.config.owner) : bot.Agrees message (token :: rest) := by
  have sound := reach.sound
  have each : ∀ t ∈ token :: rest, Text.IsWord t := fun t member =>
    Text.isWord_of_mem_words (split.symm ▸ member)
  have ends : ∀ {e}, bot.registry.Ends (token :: rest) e ↔ e = bot.registry.ending (token :: rest) :=
    Registry.ends_iff each (List.cons_ne_nil token rest)
  have within := within_of_ends sound (ends.mpr rfl)
  refine ⟨handle_eq, ?_, fun log result run clear => ?_, ⟨_, within, fun other => ends⟩, ?_, ?_⟩
  · exact (bot.dispatch message).run.exists_clear_run
  · obtain ⟨verdict, rfl, shown⟩ := clears_dispatch human taken split owner log result run clear
    refine ⟨verdict, rfl, fun e place => ?_⟩
    rw [ends]
    constructor
    · exact fun shows => shows.unique sound place within shown
    · rintro rfl
      exact shown
  · intro k j c b u v bound bound' found leaf found' leaf'
    exact Nat.le_antisymm (Registry.le_of_leaf each bound found' leaf' found)
      (Registry.le_of_leaf each bound' found leaf found')
  · intro before others later c whole othersWords same found e
    have beforeWords : ∀ t ∈ before, Text.IsWord t := fun t member =>
      each t (whole ▸ List.mem_append_left later member)
    have laterWords : ∀ t ∈ later, Text.IsWord t := fun t member =>
      each t (whole ▸ List.mem_append_right before member)
    rw [Registry.resolve?, Text.words_intercalate beforeWords] at found
    have also : bot.registry.follow? others = some c := (Registry.follow?_congr same).trans found
    have present : others ++ later ≠ [] := by
      intro none
      rw [(List.append_eq_nil_iff.mp none).1] at also
      cases also
    rw [Registry.ends_iff (List.forall_mem_append.mpr ⟨othersWords, laterWords⟩) present, ends, ← whole,
      Registry.ending_append also, Registry.ending_append found]

/-- A bot with the sample registry, and its owner. -/
def sample : Bot Unit where
  registry := Registry.Sample.registry
  config := { owner := "1" }
  perform := fun _ _ _ => pure ()

/-- The owner calls for the innermost command, in mixed letter case and with all kinds of blanks. -/
theorem dispatch_agrees_nested :
    sample.registry.Reachable Group.Made ∧
      sample.text? ⟨"7", "general", "1", false, "! G\tREMOTE  new here "⟩ = some " G\tREMOTE  new here " ∧
      Text.words " G\tREMOTE  new here " = ["G", "REMOTE", "new", "here"] ∧
      sample.Agrees ⟨"7", "general", "1", false, "! G\tREMOTE  new here "⟩ ["G", "REMOTE", "new", "here"] := by
  have taken : sample.text? ⟨"7", "general", "1", false, "! G\tREMOTE  new here "⟩ =
      some " G\tREMOTE  new here " := by decide +kernel
  have split : Text.words " G\tREMOTE  new here " = ["G", "REMOTE", "new", "here"] := by decide +kernel
  exact ⟨Registry.Sample.reachable, taken, split,
    dispatch_agrees Registry.Sample.reachable rfl taken split fun _ _ _ => rfl⟩

end Bot

end ChatCommands
