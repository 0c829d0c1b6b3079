import ChatCommands.Proofs.Dispatch.Agreement

namespace ChatCommands

open Talk

variable {α : Type}

/-- Sending a message to a channel yields `value`, unless the message cannot be delivered. -/
inductive Delivers {β : Type} (channel : ChannelId) (content : String) (value : β) :
    List Exchange → Except CommandError β → Prop
  | delivered {sent} : Delivers channel content value [⟨.chat (.send channel content), .ok sent⟩] (.ok value)
  | undelivered {e} :
      Delivers channel content value [⟨.chat (.send channel content), .error e⟩] (.error (.chat e))

theorem delivers_of_held {channel : ChannelId} {content : String} {β : Type} {value : β} {log : List Exchange}
    {result : Except CommandError β}
    (run : (do
      let _ ← orElseAs .chat (chat (.send channel content))
      return value : Talk CommandError β).run.Held log result) : Delivers channel content value log result := by
  rcases held_chat_bind_iff.mp run with ⟨e, rfl, rfl⟩ | ⟨sent, later, rfl, last⟩
  · exact .undelivered
  · obtain ⟨rfl, rfl⟩ := held_pure_iff.mp last
    exact .delivered

namespace Invocation

variable {inv : Invocation α}

/-- The exchange in which a command with a limit is charged. -/
def hit (inv : Invocation α) (c : Command α) (limit : RateLimit) (charge : Charge) : Exchange :=
  ⟨.charge (limit.limiter c.fullName) inv.author inv.time, charge⟩

/-- What charging a command can come to. -/
inductive Charges (inv : Invocation α) (c : Command α) : List Exchange → Except CommandError Bool → Prop
  | unlimited : c.profile.rateLimit? = none → Charges inv c [] (.ok true)
  | accepted {limit} : c.profile.rateLimit? = some limit → Charges inv c [inv.hit c limit .accepted] (.ok true)
  | unrendered {limit wait} : c.profile.rateLimit? = some limit → limit.renderNotice wait = none →
      Charges inv c [inv.hit c limit (.refused wait)] (.error (.notice c.fullName))
  | undelivered {limit wait notice e} : c.profile.rateLimit? = some limit →
      limit.renderNotice wait = some notice →
      Charges inv c [inv.hit c limit (.refused wait), ⟨.chat (.send inv.channel notice), .error e⟩] (.error (.chat e))
  | throttled {limit wait notice sent} : c.profile.rateLimit? = some limit →
      limit.renderNotice wait = some notice →
      Charges inv c [inv.hit c limit (.refused wait), ⟨.chat (.send inv.channel notice), .ok sent⟩,
        ⟨.deleteLater sent (inv.config.noticeLifetime * 1000), ()⟩] (.ok false)

theorem charges_of_held {c : Command α} {log : List Exchange} {result : Except CommandError Bool}
    (run : (inv.charge c).run.Held log result) : inv.Charges c log result := by
  unfold charge at run
  cases limited : c.profile.rateLimit? with
  | none =>
    rw [limited] at run
    obtain ⟨rfl, rfl⟩ := held_pure_iff.mp run
    exact .unlimited limited
  | some limit =>
    rw [limited] at run
    obtain ⟨charged, later, rfl, rest⟩ := held_service_bind_iff.mp run
    cases charged with
    | accepted =>
      obtain ⟨rfl, rfl⟩ := held_pure_iff.mp rest
      exact .accepted limited
    | refused wait =>
      cases rendered : limit.renderNotice wait with
      | none =>
        simp only [rendered] at rest
        obtain ⟨rfl, rfl⟩ := held_throw_iff.mp rest
        exact .unrendered limited rendered
      | some notice =>
        simp only [rendered] at rest
        rcases held_chat_bind_iff.mp rest with ⟨e, rfl, rfl⟩ | ⟨sent, later, rfl, told⟩
        · exact .undelivered limited rendered
        · obtain ⟨_, later, rfl, put⟩ := held_service_bind_iff.mp told
          obtain ⟨rfl, rfl⟩ := held_pure_iff.mp put
          exact .throttled limited rendered

/-- What the way down from a command can come to. -/
inductive Descends (inv : Invocation α) :
    Command α → List String → List Exchange → Except CommandError (Descent α) → Prop
  | failed {c tokens log e} : inv.Charges c log (.error e) → Descends inv c tokens log (.error e)
  | throttled {c tokens log} : inv.Charges c log (.ok false) → Descends inv c tokens log (.ok .refused)
  | arrived {profile usage action tokens log values} : inv.Charges (.leaf profile usage action) log (.ok true) →
      usage.matchTokens tokens = .ok values →
      Descends inv (.leaf profile usage action) tokens log (.ok (.arrived profile.fullName action values))
  | mismatched {c usage mismatch tokens log later result} : inv.Charges c log (.ok true) →
      c.usage? = some usage → usage.matchTokens tokens = .error mismatch →
      Delivers inv.channel (Help.leafUsage inv.config.lead c) .refused later result →
      Descends inv c tokens (log ++ later) result
  | stranded {c tokens log later result} : inv.Charges c log (.ok true) →
      c.usage? = none → tokens.head?.bind c.child? = none →
      Delivers inv.channel (Help.branchUsage inv.config.lead c) .refused later result →
      Descends inv c tokens (log ++ later) result
  | passed {c b token rest log later result} : inv.Charges c log (.ok true) →
      c.child? token = some b → Descends inv b rest later result →
      Descends inv c (token :: rest) (log ++ later) result

/-- Charging a command comes before anything else that is done about it. -/
theorem cases_of_charge {c : Command α} {next : Talk CommandError (Descent α)} {log : List Exchange}
    {result : Except CommandError (Descent α)}
    (run : (do
      if !(← inv.charge c) then return .refused
      next : Talk CommandError (Descent α)).run.Held log result) :
    (∃ e, inv.Charges c log (.error e) ∧ result = .error e) ∨
      (inv.Charges c log (.ok false) ∧ result = .ok .refused) ∨
      ∃ first later, log = first ++ later ∧ inv.Charges c first (.ok true) ∧ next.run.Held later result := by
  rcases held_bind_iff.mp run with ⟨e, charge, rfl⟩ | ⟨first, later, passed, rfl, charge, rest⟩
  · exact .inl ⟨e, charges_of_held charge, rfl⟩
  · cases passed with
    | true => exact .inr (.inr ⟨first, later, rfl, charges_of_held charge, rest⟩)
    | false =>
      obtain ⟨rfl, rfl⟩ := held_pure_iff.mp rest
      rw [List.append_nil]
      exact .inr (.inl ⟨charges_of_held charge, rfl⟩)

theorem descends_leaf {profile : Profile} {usage : Usage} {action : α} {tokens : List String}
    {log : List Exchange} {result : Except CommandError (Descent α)}
    (run : (inv.descend (.leaf profile usage action) tokens).run.Held log result) :
    inv.Descends (.leaf profile usage action) tokens log result := by
  unfold descend at run
  rcases cases_of_charge run with ⟨e, charge, rfl⟩ | ⟨charge, rfl⟩ | ⟨first, later, rfl, charge, rest⟩
  · exact .failed charge
  · exact .throttled charge
  · cases outcome : usage.matchTokens tokens with
    | ok values =>
      simp only [outcome] at rest
      obtain ⟨rfl, rfl⟩ := held_pure_iff.mp rest
      rw [List.append_nil]
      exact .arrived charge outcome
    | error mismatch =>
      simp only [outcome] at rest
      exact .mismatched charge rfl outcome (delivers_of_held rest)

theorem descends_of_held {c : Command α} {tokens : List String} {log : List Exchange}
    {result : Except CommandError (Descent α)} (run : (inv.descend c tokens).run.Held log result) :
    inv.Descends c tokens log result := by
  induction tokens generalizing c log with
  | nil =>
    cases c with
    | leaf => exact descends_leaf run
    | branch profile children =>
      unfold descend at run
      rcases cases_of_charge run with ⟨e, charge, rfl⟩ | ⟨charge, rfl⟩ | ⟨first, later, rfl, charge, rest⟩
      · exact .failed charge
      · exact .throttled charge
      · exact .stranded charge rfl rfl (delivers_of_held rest)
  | cons token tokens ih =>
    cases c with
    | leaf => exact descends_leaf run
    | branch profile children =>
      unfold descend at run
      rcases cases_of_charge run with ⟨e, charge, rfl⟩ | ⟨charge, rfl⟩ | ⟨first, later, rfl, charge, rest⟩
      · exact .failed charge
      · exact .throttled charge
      · cases child : (Command.branch profile children).child? token with
        | some b =>
          simp only [child] at rest
          exact .passed charge child (ih rest)
        | none =>
          simp only [child] at rest
          exact .stranded charge rfl child (delivers_of_held rest)

end Invocation

namespace Bot

variable {bot : Bot α} {message : Message}

/-- The author of a message may use a command. -/
def Permits (bot : Bot α) (message : Message) (c : Command α) : Prop :=
  c.profile.ownerOnly = true → message.author = bot.config.owner

/-- What a message that calls for a command can come to before any limit is charged. -/
inductive Checks (bot : Bot α) (message : Message) (c : Command α) (remaining : String) :
    List Exchange → Except CommandError (Admission α) → Prop
  | foreign {log result} : ¬ bot.Permits message c →
      Delivers message.channel "This command can only be used by the owner" (.settled (.denied .ownerOnly))
        log result → Checks bot message c remaining log result
  | unplaced {e} : bot.Permits message c → c.profile.dmAllowed = false →
      Checks bot message c remaining [⟨.chat (.isDirect message.channel), .error e⟩] (.error (.chat e))
  | direct {log result} : bot.Permits message c → c.profile.dmAllowed = false →
      Delivers message.channel "This command cannot be used in direct messages"
        (.settled (.denied .directMessage)) log result →
      Checks bot message c remaining (⟨.chat (.isDirect message.channel), .ok true⟩ :: log) result
  | indirect {time} : bot.Permits message c → c.profile.dmAllowed = false →
      Checks bot message c remaining [⟨.chat (.isDirect message.channel), .ok false⟩, ⟨.clock, time⟩]
        (.ok (.admitted ⟨bot.registry, bot.config, message, time⟩ c (Text.words remaining)))
  | anywhere {time} : bot.Permits message c → c.profile.dmAllowed = true →
      Checks bot message c remaining [⟨.clock, time⟩]
        (.ok (.admitted ⟨bot.registry, bot.config, message, time⟩ c (Text.words remaining)))

/-- What a message can come to before any limit is charged. -/
inductive Receives (bot : Bot α) (message : Message) : List Exchange → Except CommandError (Admission α) → Prop
  | flagged : message.authorIsBot = true → Receives bot message [] (.ok (.settled .ignored))
  | unknown {e} : message.authorIsBot = false →
      Receives bot message [⟨.chat (.isBot message.author), .error e⟩] (.error (.chat e))
  | automated : message.authorIsBot = false →
      Receives bot message [⟨.chat (.isBot message.author), .ok true⟩] (.ok (.settled .ignored))
  | plain : message.authorIsBot = false → bot.text? message >>= Text.cut? = none →
      Receives bot message [⟨.chat (.isBot message.author), .ok false⟩] (.ok (.settled .ignored))
  | missing {head remaining log result} : message.authorIsBot = false →
      bot.text? message >>= Text.cut? = some (head, remaining) → bot.registry.command? head = none →
      Delivers message.channel s!"Command not found: `{head}`" (.settled .notFound) log result →
      Receives bot message (⟨.chat (.isBot message.author), .ok false⟩ :: log) result
  | found {head remaining c log result} : message.authorIsBot = false →
      bot.text? message >>= Text.cut? = some (head, remaining) → bot.registry.command? head = some c →
      bot.Checks message c remaining log result →
      Receives bot message (⟨.chat (.isBot message.author), .ok false⟩ :: log) result

theorem checks_of_held {c : Command α} {remaining : String} {log : List Exchange}
    {result : Except CommandError (Admission α)}
    (run : (do
      if c.profile.ownerOnly && message.author != bot.config.owner then
        let _ ← orElseAs .chat (chat (.send message.channel "This command can only be used by the owner"))
        return .settled (.denied .ownerOnly)
      if !c.profile.dmAllowed then
        if ← orElseAs .chat (chat (.isDirect message.channel)) then
          let _ ← orElseAs .chat (chat (.send message.channel "This command cannot be used in direct messages"))
          return .settled (.denied .directMessage)
      let time ← service .clock
      return .admitted ⟨bot.registry, bot.config, message, time⟩ c (Text.words remaining) :
        Talk CommandError (Admission α)).run.Held log result) : bot.Checks message c remaining log result := by
  by_cases permitted : bot.Permits message c
  · have passes : (c.profile.ownerOnly && message.author != bot.config.owner) = false := by
      cases only : c.profile.ownerOnly with
      | false => rfl
      | true => simp [permitted only]
    simp only [passes, Bool.false_eq_true, if_false] at run
    cases place : c.profile.dmAllowed with
    | true =>
      simp only [place, Bool.not_true, Bool.false_eq_true, if_false] at run
      obtain ⟨time, _, rfl, rest⟩ := held_service_bind_iff.mp run
      obtain ⟨rfl, rfl⟩ := held_pure_iff.mp rest
      exact .anywhere permitted place
    | false =>
      simp only [place, Bool.not_false, if_true] at run
      rcases held_chat_bind_iff.mp run with ⟨e, rfl, rfl⟩ | ⟨isDirect, later, rfl, rest⟩
      · exact .unplaced permitted place
      cases isDirect with
      | true =>
        simp only [if_true] at rest
        exact .direct permitted place (delivers_of_held rest)
      | false =>
        simp only [Bool.false_eq_true, if_false] at rest
        obtain ⟨time, _, rfl, last⟩ := held_service_bind_iff.mp rest
        obtain ⟨rfl, rfl⟩ := held_pure_iff.mp last
        exact .indirect permitted place
  · have refused : (c.profile.ownerOnly && message.author != bot.config.owner) = true := by
      obtain ⟨only, other⟩ := Classical.not_imp.mp permitted
      simp [only, other]
    simp only [refused, if_true] at run
    exact .foreign permitted (delivers_of_held run)

theorem receives_of_held {log : List Exchange} {result : Except CommandError (Admission α)}
    (run : (bot.receive message).run.Held log result) : bot.Receives message log result := by
  unfold receive receive.answer at run
  simp only [bind_assoc, pure_bind] at run
  cases flag : message.authorIsBot with
  | true =>
    simp only [flag, if_true] at run
    obtain ⟨rfl, rfl⟩ := held_pure_iff.mp run
    exact .flagged flag
  | false =>
    simp only [flag, Bool.false_eq_true, if_false] at run
    rcases held_chat_bind_iff.mp run with ⟨e, rfl, rfl⟩ | ⟨isBot, later, rfl, rest⟩
    · exact .unknown flag
    cases isBot with
    | true =>
      obtain ⟨rfl, rfl⟩ := held_pure_iff.mp rest
      exact .automated flag
    | false =>
      simp only [Bool.false_eq_true, if_false] at rest
      cases cut : bot.text? message >>= Text.cut? with
      | none =>
        simp only [cut] at rest
        obtain ⟨rfl, rfl⟩ := held_pure_iff.mp rest
        exact .plain flag cut
      | some parts =>
        obtain ⟨head, remaining⟩ := parts
        cases top : bot.registry.command? head with
        | none =>
          simp only [cut, top] at rest
          exact .missing flag cut top (delivers_of_held rest)
        | some c =>
          simp only [cut, top] at rest
          exact .found flag cut top (checks_of_held rest)

/-- What the dispatch of a message can come to. -/
inductive Dispatches (bot : Bot α) (message : Message) : List Exchange → Except CommandError (Verdict α) → Prop
  | failed {log e} : bot.Receives message log (.error e) → Dispatches bot message log (.error e)
  | settled {log outcome} : bot.Receives message log (.ok (.settled outcome)) →
      Dispatches bot message log (.ok (.settled outcome))
  | lost {inv c tokens first later e} : bot.Receives message first (.ok (.admitted inv c tokens)) →
      inv.Descends c tokens later (.error e) → Dispatches bot message (first ++ later) (.error e)
  | refused {inv c tokens first later} : bot.Receives message first (.ok (.admitted inv c tokens)) →
      inv.Descends c tokens later (.ok .refused) →
      Dispatches bot message (first ++ later) (.ok (.settled .rejected))
  | arrived {inv c tokens first later command action values} :
      bot.Receives message first (.ok (.admitted inv c tokens)) →
      inv.Descends c tokens later (.ok (.arrived command action values)) →
      Dispatches bot message (first ++ later) (.ok (.run inv command action values))

theorem dispatches_of_held {log : List Exchange} {result : Except CommandError (Verdict α)}
    (run : (bot.dispatch message).run.Held log result) : bot.Dispatches message log result := by
  unfold dispatch at run
  rcases held_bind_iff.mp run with ⟨e, received, rfl⟩ | ⟨first, rest, admission, rfl, received, next⟩
  · exact .failed (receives_of_held received)
  cases admission with
  | settled outcome =>
    obtain ⟨rfl, rfl⟩ := held_pure_iff.mp next
    rw [List.append_nil]
    exact .settled (receives_of_held received)
  | admitted inv c tokens =>
    have admitted := receives_of_held received
    rcases held_bind_iff.mp next with ⟨e, way, rfl⟩ | ⟨later, _, descent, rfl, way, last⟩
    · exact .lost admitted (Invocation.descends_of_held way)
    cases descent with
    | refused =>
      obtain ⟨rfl, rfl⟩ := held_pure_iff.mp last
      rw [List.append_nil]
      exact .refused admitted (Invocation.descends_of_held way)
    | arrived command action values =>
      obtain ⟨rfl, rfl⟩ := held_pure_iff.mp last
      rw [List.append_nil]
      exact .arrived admitted (Invocation.descends_of_held way)

end Bot

end ChatCommands
