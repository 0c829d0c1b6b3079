import ChatCommands.Proofs.Chat.Exchange
import ChatCommands.Proofs.Dispatch.Course

namespace ChatCommands

variable {α : Type}

/-- Holds of the failures that come before any action. -/
def CommandError.IsEarly : CommandError → Prop
  | .action _ _ => False
  | .chat _ | .notice _ => True

section

variable {β : Type} {channel : ChannelId} {content : String} {value value' : β} {log : List Exchange}

theorem Delivers.yields (course : Delivers channel content value log (.ok value')) :
    value' = value ∧ RepliesOnce channel log := by
  cases course
  exact ⟨rfl, content, _, rfl⟩

theorem Delivers.isEarly {e : CommandError} (course : Delivers channel content value log (.error e)) :
    e.IsEarly := by
  cases course
  trivial

theorem Delivers.prompt {result : Except CommandError β}
    (course : Delivers channel content value log result) : Prompt log := by
  cases course <;> exact ⟨rfl, rfl⟩

end

namespace Invocation

variable {inv : Invocation α} {c : Command α} {tokens : List String} {log : List Exchange}

theorem Charges.accepts (course : inv.Charges c log (.ok true)) :
    log.filter Exchange.posts = [] ∧ log.any Exchange.refuses = false := by
  cases course with
  | unlimited => exact ⟨rfl, rfl⟩
  | accepted => exact ⟨rfl, rfl⟩

theorem Charges.refuses (course : inv.Charges c log (.ok false)) :
    RepliesOnce inv.channel log ∧ log.any Exchange.refuses = true := by
  cases course with
  | throttled => exact ⟨⟨_, _, rfl⟩, rfl⟩

theorem Charges.isEarly {e : CommandError} (course : inv.Charges c log (.error e)) : e.IsEarly := by
  cases course <;> trivial

section

variable {result : Except CommandError (Descent α)}

theorem Descends.isEarly (course : inv.Descends c tokens log result) {e : CommandError}
    (fails : result = .error e) : e.IsEarly := by
  induction course with
  | failed charge =>
    cases fails
    exact charge.isEarly
  | throttled | arrived => cases fails
  | mismatched _ _ _ told | stranded _ _ _ told =>
    subst fails
    exact told.isEarly
  | passed _ _ _ ih => exact ih fails

/-- The way down arrives at the leaf, and with the values, that the tokens tell. -/
theorem Descends.arrives (course : inv.Descends c tokens log result) {command : String} {action : α}
    {values : List String} (arrival : result = .ok (.arrived command action values)) :
    log.filter Exchange.posts = [] ∧ log.any Exchange.refuses = false ∧ ∃ profile usage,
      c.endingBelow tokens = .run (.leaf profile usage action) values ∧ command = profile.fullName := by
  induction course with
  | failed | throttled => cases arrival
  | @arrived profile usage action tokens log values charge outcome =>
    cases arrival
    have leaf : (Command.leaf profile usage action).usage? = some usage := rfl
    have ends := (Command.endingBelow_of_usage leaf).trans (Command.ending_of_match leaf outcome)
    exact ⟨charge.accepts.1, charge.accepts.2, profile, usage, ends, rfl⟩
  | mismatched _ _ _ told | stranded _ _ _ told =>
    subst arrival
    cases told.yields.1
  | passed charge child _ ih =>
    -- A command that is passed on the way was charged in silence, so all that counts comes after it.
    obtain ⟨silent, unrefused, place⟩ := ih arrival
    rw [Command.endingBelow_of_child child, List.filter_append, List.any_append, charge.accepts.1,
      charge.accepts.2]
    exact ⟨silent, unrefused, place⟩

/-- The way down is refused with one reply, for a limit that is used up or for what the tokens tell. -/
theorem Descends.refuses (course : inv.Descends c tokens log result) (refusal : result = .ok .refused) :
    RepliesOnce inv.channel log ∧ (log.any Exchange.refuses = true ∨
      ∃ d, c.endingBelow tokens = .leafUsage d ∨ c.endingBelow tokens = .branchUsage d) := by
  induction course with
  | failed | arrived => cases refusal
  | throttled charge => exact ⟨charge.refuses.1, .inl charge.refuses.2⟩
  | mismatched charge leaf outcome told =>
    subst refusal
    have ends := (Command.endingBelow_of_usage leaf).trans (Command.ending_of_mismatch leaf outcome)
    exact ⟨told.yields.2.of_silent charge.accepts.1, .inr ⟨_, .inl ends⟩⟩
  | stranded charge branch stop told =>
    subst refusal
    have ends := (Command.endingBelow_of_stop stop).trans (Command.ending_of_branch branch)
    exact ⟨told.yields.2.of_silent charge.accepts.1, .inr ⟨_, .inr ends⟩⟩
  | passed charge child _ ih =>
    obtain ⟨replies, why⟩ := ih refusal
    rw [Command.endingBelow_of_child child, List.any_append, charge.accepts.2]
    exact ⟨replies.of_silent charge.accepts.1, why⟩

end

end Invocation

/-- Behind the lead of a message, the first word names `c` at the top, and `rest` are the other words. -/
def Bot.Called (bot : Bot α) (message : Message) (c : Command α) (rest : List String) : Prop :=
  ∃ text token, message.content = bot.config.lead ++ text ∧ Text.words text = token :: rest ∧
    bot.registry.command? token = some c

/-- All that stands before the limits on the way down from the top-level command `c`: what is true of the
message, and what the platform answered in these exchanges. -/
structure Bot.Passes (bot : Bot α) (message : Message) (own : List Exchange) (c : Command α) : Prop where
  human : message.authorIsBot = false
  unautomated : ⟨.chat (.isBot message.author), .ok false⟩ ∈ own
  called : ∃ rest, bot.Called message c rest
  gated : ∀ gate, bot.gate? = some gate → gate message bot.config = true
  permitted : bot.Permits message c
  indirect : c.profile.dmAllowed = false → ⟨.chat (.isDirect message.channel), .ok false⟩ ∈ own

namespace Bot

open Talk

variable {bot : Bot α} {message : Message} {log : List Exchange}

/-- The words of a message lead to the usage of some command. -/
def Misused (bot : Bot α) (message : Message) : Prop :=
  ∃ text c, message.content = bot.config.lead ++ text ∧
    (bot.registry.Ends (Text.words text) (.leafUsage c) ∨ bot.registry.Ends (Text.words text) (.branchUsage c))

/-- What there is to an outcome with which dispatch settles a message. -/
inductive Settles (bot : Bot α) (message : Message) (own : List Exchange) : Outcome → Prop
  | ignored : Prompt own → (∀ c, ¬ bot.Passes message own c) →
      own.filter Exchange.posts = [] → Settles bot message own .ignored
  | notFound : Prompt own → (∀ c, ¬ bot.Passes message own c) →
      RepliesOnce message.channel own → Settles bot message own .notFound
  | denied {reason} : Prompt own → (∀ c, ¬ bot.Passes message own c) →
      RepliesOnce message.channel own → Settles bot message own (.denied reason)
  | rejected {c} : bot.Passes message own c → (own.any Exchange.refuses = true ∨ bot.Misused message) →
      RepliesOnce message.channel own → Settles bot message own .rejected

theorem text?_eq_some {text : String} : bot.text? message = some text ↔
    message.content = bot.config.lead ++ text ∧ ∀ gate, bot.gate? = some gate → gate message bot.config = true := by
  rw [text?, Option.bind_eq_bind, Option.bind_eq_some_iff, ← Text.after?_eq_some]
  cases guard : bot.gate? with
  | none => simp
  | some gate =>
    cases passed : gate message bot.config with
    | true => simp [passed]
    | false => simp [passed]

theorem called_of_cut {head remaining : String} {c : Command α}
    (cut : bot.text? message >>= Text.cut? = some (head, remaining)) (top : bot.registry.command? head = some c) :
    bot.Called message c (Text.words remaining) ∧
      ∀ gate, bot.gate? = some gate → gate message bot.config = true := by
  obtain ⟨text, taken, split⟩ := Option.bind_eq_some_iff.mp cut
  obtain ⟨content, passed⟩ := text?_eq_some.mp taken
  exact ⟨⟨text, head, content, Text.words_of_cut? split, top⟩, passed⟩

theorem Passes.cut {own : List Exchange} {c : Command α} (passes : bot.Passes message own c) :
    ∃ head remaining, bot.text? message >>= Text.cut? = some (head, remaining) ∧
      bot.registry.command? head = some c := by
  obtain ⟨rest, text, token, content, split, top⟩ := passes.called
  have taken := text?_eq_some.mpr ⟨content, passes.gated⟩
  rcases Text.cut?_cases text with ⟨none, _⟩ | ⟨head, remaining, split', cut⟩
  · rw [none] at split
    cases split
  · rw [split] at split'
    cases split'
    exact ⟨token, remaining, by rw [taken, Option.bind_eq_bind, Option.bind_some, cut], top⟩

theorem Checks.prompt {c : Command α} {remaining : String} {result : Except CommandError (Admission α)}
    (course : bot.Checks message c remaining log result) : Prompt log := by
  cases course with
  | foreign _ told | direct _ _ told => exact told.prompt
  | unplaced | indirect | anywhere => exact ⟨rfl, rfl⟩

theorem Receives.prompt {result : Except CommandError (Admission α)}
    (course : bot.Receives message log result) : Prompt log := by
  cases course with
  | flagged | unknown | automated | plain => exact ⟨rfl, rfl⟩
  | missing _ _ _ told => exact told.prompt
  | found _ _ _ checks => exact checks.prompt

theorem Receives.isEarly {e : CommandError} (course : bot.Receives message log (.error e)) : e.IsEarly := by
  cases course with
  | unknown => trivial
  | missing _ _ _ told => exact told.isEarly
  | found _ _ _ checks =>
    cases checks with
    | foreign _ told => exact told.isEarly
    | unplaced => trivial
    | direct _ _ told => exact told.isEarly

/-- No message that is settled here has passed the checks, whatever command they are the checks of. -/
theorem Receives.not_passes {outcome : Outcome} (course : bot.Receives message log (.ok (.settled outcome)))
    {c : Command α} : ¬ bot.Passes message log c := by
  intro passes
  obtain ⟨head, remaining, cut, top⟩ := passes.cut
  cases course with
  | flagged flag => cases flag.symm.trans passes.human
  | automated => simpa using passes.unautomated
  | plain _ none => cases none.symm.trans cut
  | missing _ cut' missing =>
    cases cut'.symm.trans cut
    cases missing.symm.trans top
  | found _ cut' top' checks =>
    cases cut'.symm.trans cut
    cases top'.symm.trans top
    cases checks with
    | foreign foreign => exact foreign passes.permitted
    | direct _ place told =>
      have asked := passes.indirect place
      cases told
      simp at asked

/-- A message that is settled before any limit is charged is ignored in silence, or answered once. -/
theorem Receives.settles {outcome : Outcome} (course : bot.Receives message log (.ok (.settled outcome))) :
    bot.Settles message log outcome := by
  have barred : ∀ c, ¬ bot.Passes message log c := fun c => course.not_passes
  have prompt := course.prompt
  cases course with
  | flagged | automated | plain => exact .ignored prompt barred rfl
  | missing _ _ _ told =>
    obtain ⟨same, replies⟩ := told.yields
    cases same
    exact .notFound prompt barred replies
  | found _ _ _ checks =>
    cases checks with
    | foreign _ told =>
      obtain ⟨same, replies⟩ := told.yields
      cases same
      exact .denied prompt barred replies
    | direct _ _ told =>
      obtain ⟨same, replies⟩ := told.yields
      cases same
      exact .denied prompt barred replies

/-- A message whose command is admitted has passed all checks, and nothing is posted about it so far. -/
theorem Receives.admits {inv : Invocation α} {c : Command α} {tokens : List String}
    (course : bot.Receives message log (.ok (.admitted inv c tokens))) :
    log.filter Exchange.posts = [] ∧ bot.Passes message log c ∧ bot.Called message c tokens ∧
      inv.message = message := by
  cases course with
  | missing _ _ _ told => cases told.yields.1
  | found human cut top checks =>
    obtain ⟨called, gated⟩ := called_of_cut cut top
    cases checks with
    | foreign _ told => cases told.yields.1
    | direct _ _ told => cases told.yields.1
    | indirect permitted place =>
      refine ⟨rfl, ⟨human, List.mem_cons_self .., ⟨_, called⟩, gated, permitted, fun _ => ?_⟩, called, rfl⟩
      exact List.mem_cons_of_mem _ (List.mem_cons_self ..)
    | anywhere permitted place =>
      refine ⟨rfl, ⟨human, List.mem_cons_self .., ⟨_, called⟩, gated, permitted, fun closed => ?_⟩, called, rfl⟩
      cases place.symm.trans closed

theorem Passes.append {first : List Exchange} {c : Command α} (passes : bot.Passes message first c)
    (later : List Exchange) : bot.Passes message (first ++ later) c :=
  ⟨passes.human, List.mem_append_left later passes.unautomated, passes.called, passes.gated, passes.permitted,
    fun closed => List.mem_append_left later (passes.indirect closed)⟩

/-- Whether a message is misused is seen on the way down from the command that its first word names. -/
theorem Called.misused_iff {rest : List String} {c : Command α} (called : bot.Called message c rest) :
    bot.Misused message ↔ ∃ d, c.endingBelow rest = .leafUsage d ∨ c.endingBelow rest = .branchUsage d := by
  obtain ⟨text, token, content, split, top⟩ := called
  have ends : ∀ {e}, bot.registry.Ends (Text.words text) e ↔ e = c.endingBelow rest := by
    intro e
    rw [Registry.ends_words_iff split, Registry.ending_of_found top]
  constructor
  · rintro ⟨text', d, content', usage⟩
    have same : text' = text := by
      rw [content] at content'
      exact ((String.append_right_inj _).mp content').symm
    subst same
    exact ⟨d, usage.imp (fun leaf => (ends.mp leaf).symm) fun branch => (ends.mp branch).symm⟩
  · rintro ⟨d, usage⟩
    exact ⟨text, d, content, usage.imp (fun leaf => ends.mpr leaf.symm) fun branch => ends.mpr branch.symm⟩

theorem Dispatches.isEarly {e : CommandError} (course : bot.Dispatches message log (.error e)) : e.IsEarly := by
  cases course with
  | failed received => exact received.isEarly
  | lost _ way => exact way.isEarly rfl

/-- When dispatch leads to an action, the message has passed all checks, the action is that of the leaf to
which the words lead, nothing was posted, and no limit was used up. -/
theorem Dispatches.arrives {inv : Invocation α} {command : String} {action : α} {values : List String}
    (course : bot.Dispatches message log (.ok (.run inv command action values))) :
    log.filter Exchange.posts = [] ∧ log.any Exchange.refuses = false ∧ ∃ c rest profile usage,
      bot.Passes message log c ∧ bot.Called message c rest ∧
        c.endingBelow rest = .run (.leaf profile usage action) values ∧ command = profile.fullName := by
  cases course with
  | arrived admitted way =>
    obtain ⟨silent, passes, called, _⟩ := admitted.admits
    obtain ⟨silent', unrefused, profile, usage, ends, named⟩ := way.arrives rfl
    rw [List.filter_append, silent, silent', List.any_append, admitted.prompt.unrefused, unrefused]
    exact ⟨rfl, rfl, _, _, profile, usage, passes.append _, called, ends, named⟩

theorem Dispatches.settles {outcome : Outcome} (course : bot.Dispatches message log (.ok (.settled outcome))) :
    bot.Settles message log outcome := by
  cases course with
  | settled received => exact received.settles
  | refused admitted way =>
    obtain ⟨silent, passes, called, same⟩ := admitted.admits
    obtain ⟨replies, why⟩ := way.refuses rfl
    rw [Invocation.channel, same] at replies
    refine .rejected (passes.append _) ?_ (replies.of_silent silent)
    rw [called.misused_iff, List.any_append, admitted.prompt.unrefused, Bool.false_or]
    exact why

end Bot

end ChatCommands
