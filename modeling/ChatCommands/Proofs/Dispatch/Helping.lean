import ChatCommands.Proofs.Dispatch.Handling
import ChatCommands.Proofs.Registry.Builtins
import ChatCommands.Script
import ChatCommands.Session.Schedule

namespace ChatCommands

open Talk Text

variable {α : Type}

/-- The one slot of `help` takes all tokens, and joins them again. -/
theorem Builtin.matchTokens_help {action : α} {tokens : List String} (present : tokens ≠ []) :
    (⟨(help action).arguments⟩ : Usage).matchTokens tokens = .ok [" ".intercalate tokens] := by
  cases tokens with
  | nil => exact absurd rfl present
  | cons token rest =>
    have room : ¬ (token :: rest).length < (⟨(help action).arguments⟩ : Usage).mandatoryCount := Nat.not_lt_zero _
    have endless : (⟨(help action).arguments⟩ : Usage).hasMulti = true := rfl
    rw [Usage.matchTokens, if_neg room, endless, Bool.not_true, Bool.and_false]
    rfl

/-- A question that leads to a command is answered with the help of the command. -/
theorem Help.answer_of_resolve? {r : Registry α} {lead question : String} {viewerIsOwner : Bool} {c : Command α}
    (found : r.resolve? question = some c) : answer r lead viewerIsOwner question = ofCommand lead c := by
  have trimmed : r.resolve? (trim question) = some c := by
    rw [Registry.resolve?, words_trim]
    exact found
  have present : (trim question).isEmpty = false := by
    refine Bool.eq_false_iff.mpr fun empty => ?_
    rw [String.isEmpty_iff.mp empty] at trimmed
    cases trimmed
  rw [answer, present, if_neg Bool.false_ne_true, trimmed]

/-- Here the author of a message is no bot, and what is sent to its channel is delivered. -/
def Exchange.Welcomes (message : Message) : Exchange → Prop
  | ⟨.chat (.isBot user), answer⟩ => user = message.author → answer = .ok false
  | ⟨.chat (.send channel _), answer⟩ => channel = message.channel → ∃ sent, answer = .ok sent
  | _ => True

theorem Exchange.Clear.welcomes {message : Message} {e : Exchange} (clear : e.Clear) : e.Welcomes message := by
  unfold Welcomes
  split
  · exact fun _ => clear
  · exact fun _ => clear
  · exact trivial

/-- A call that does not wait is answered at once. -/
theorem Talk.advance_chat_bind {ε β : Type} {call : ChatCall} {kind : ChatError → ε}
    {next : call.Value → Talk ε β} {value : call.Value} {w after : World}
    (prompt : ∀ answer, Exchange.waits ⟨.chat call, answer⟩ = false)
    (answered : w.call call = (.ok value, after)) :
    (orElseAs kind (chat call) >>= next).run.advance w = (next value).run.advance after := by
  have goes (resume : Except ChatError call.Value → Conversation (Except ε β)) :
      Conversation.advance (.ask (.chat call) resume) w = (resume (w.call call).1).advance (w.call call).2 := by
    cases call with
    | awaitReply | awaitReaction => cases prompt (.ok none)
    | _ => rfl
  refine (goes _).trans ?_
  rw [answered]
  rfl

namespace Bot

variable {bot : Bot α} {message : Message}

/-- All that is done about a call of `help` for which `text` is the answer. -/
def explain (message : Message) (text : String) : Talk CommandError Outcome := do
  if ← orElseAs .chat (chat (.isBot message.author)) then return .ignored
  let _ ← service .clock
  let _ ← orElseAs (fun cause => .action "help" (.chat cause)) (chat (.send message.channel text))
  return .handled

theorem receive_help {action : α} {head remaining : String} (human : message.authorIsBot = false)
    (cut : bot.text? message >>= cut? = some (head, remaining))
    (top : bot.registry.command? head = some (Builtin.helpCommand action)) :
    bot.receive message = (do
      if ← orElseAs .chat (chat (.isBot message.author)) then return .settled .ignored
      let time ← service .clock
      return .admitted ⟨bot.registry, bot.config, message, time⟩ (Builtin.helpCommand action)
        (words remaining)) := by
  unfold receive
  simp only [human, cut, top]
  rfl

theorem descend_of_unlimited {inv : Invocation α} {profile : Profile} {usage : Usage} {action : α}
    {tokens values : List String} (unlimited : profile.rateLimit? = none)
    (outcome : usage.matchTokens tokens = .ok values) :
    inv.descend (.leaf profile usage action) tokens = pure (.arrived profile.fullName action values) := by
  have free : inv.charge (.leaf profile usage action) = pure true := by
    unfold Invocation.charge
    simp only [Command.profile, unlimited]
  unfold Invocation.descend
  simp only [free, pure_bind, outcome]
  rfl

/-- A call of `help` that is about a command comes to no more than `explain`, whoever else uses the bot. -/
theorem handle_eq_explain {actions : BuiltinActions α} {c : Command α} {head remaining : String}
    (helps : ∀ inv values, bot.perform actions.help inv values = Script.help.perform inv values)
    (human : message.authorIsBot = false) (cut : bot.text? message >>= cut? = some (head, remaining))
    (top : bot.registry.command? head = some (Builtin.helpCommand actions.help))
    (asked : bot.registry.follow? (words remaining) = some c) :
    bot.handle message = explain message (Help.ofCommand bot.config.lead c) := by
  have present : words remaining ≠ [] := by
    intro none
    rw [none] at asked
    cases asked
  have resolves : bot.registry.resolve? (" ".intercalate (words remaining)) = some c := by
    rw [Registry.resolve?, words_intercalate fun _ member => isWord_of_mem_words member]
    exact asked
  unfold handle explain execute
  rw [receive_help human cut top]
  simp only [bind_assoc]
  refine bind_congr fun isBot => ?_
  cases isBot with
  | true => rfl
  | false =>
    simp only [Bool.false_eq_true, if_false, bind_assoc, pure_bind]
    refine bind_congr fun time => ?_
    unfold Builtin.helpCommand
    rw [descend_of_unlimited rfl (Builtin.matchTokens_help present)]
    simp only [pure_bind, helps, Script.perform, List.headD_cons, Help.answer_of_resolve? resolves]
    refine congrArg (Conversation.ask (.chat (.send message.channel _))) (funext fun sent => ?_)
    cases sent <;> rfl

theorem held_explain {text : String} {log : List Exchange} {result : Except CommandError Outcome}
    (run : (explain message text).run.Held log result) (welcome : ∀ e ∈ log, e.Welcomes message) :
    result = .ok .handled ∧ ∃ time sent, log = [⟨.chat (.isBot message.author), .ok false⟩, ⟨.clock, time⟩,
      ⟨.chat (.send message.channel text), .ok sent⟩] := by
  rcases held_chat_bind_iff.mp run with ⟨e, rfl, _⟩ | ⟨isBot, later, rfl, rest⟩
  · cases welcome _ (List.mem_singleton_self _) rfl
  obtain ⟨human, welcomeLater⟩ := List.forall_mem_cons.mp welcome
  cases human rfl
  rw [if_neg Bool.false_ne_true] at rest
  obtain ⟨time, last, rfl, answering⟩ := held_service_bind_iff.mp rest
  rcases held_chat_bind_iff.mp answering with ⟨e, rfl, _⟩ | ⟨sent, none, rfl, ending⟩
  · obtain ⟨_, delivered⟩ := welcomeLater _ (List.mem_cons_of_mem _ (List.mem_singleton_self _)) rfl
    cases delivered
  · obtain ⟨rfl, rfl⟩ := held_pure_iff.mp ending
    exact ⟨rfl, time, sent, rfl⟩

theorem advance_explain {text : String} {w : World} (unfaulted : w.faults = [])
    (human : w.memory.bots.contains message.author = false)
    (deliverable : w.memory.undeliverable.contains message.channel = false) :
    (explain message text).run.advance w =
      (.ended (.ok .handled), [], { w with memory := (w.memory.send message.channel text).2 }) := by
  have clear {name : String} : w.meetFault name = (none, w) := by
    rw [World.meetFault, unfaulted]
    rfl
  have asked : w.call (.isBot message.author) = (.ok false, w) := by
    rw [World.call, clear]
    simp only [World.perform, World.onMemory, human]
  have delivered : ∃ sent, w.call (.send message.channel text) =
      (.ok sent, { w with memory := (w.memory.send message.channel text).2 }) := by
    rw [World.call, clear]
    simp only [World.perform, World.onMemory, Memory.send, Memory.post, deliverable, Bool.false_eq_true, if_false]
    exact ⟨_, rfl⟩
  obtain ⟨sent, delivered⟩ := delivered
  unfold explain
  rw [Talk.advance_chat_bind (fun _ => rfl) asked]
  change ((do
    let _ ← orElseAs (fun cause => .action "help" (.chat cause)) (chat (.send message.channel text))
    return .handled) : Talk CommandError Outcome).run.advance w = _
  rw [Talk.advance_chat_bind (fun _ => rfl) delivered]
  rfl

/-- What the hint says to send is cut into `help` and a text with the words of the full name. -/
theorem cut_of_hint {c : Command α} (gated : ∀ gate, bot.gate? = some gate → gate message bot.config = true)
    (content : message.content = bot.config.lead ++ "help " ++ c.fullName) :
    ∃ remaining, bot.text? message >>= cut? = some ("help", remaining) ∧ words remaining = words c.fullName := by
  have taken : bot.text? message = some ("help" ++ " " ++ c.fullName) := by
    refine text?_eq_some.mpr ⟨?_, gated⟩
    rw [content, String.append_assoc]
    rfl
  have word : IsWord "help" := ⟨by decide, by decide⟩
  have tokens : words ("help" ++ " " ++ c.fullName) = "help" :: words c.fullName := by
    rw [words_append_space, word.words_eq]
    rfl
  rcases cut?_cases ("help" ++ " " ++ c.fullName) with ⟨none, _⟩ | ⟨head, remaining, split, cut⟩
  · rw [tokens] at none
    cases none
  · rw [tokens] at split
    obtain ⟨rfl, left⟩ := List.cons.inj split
    exact ⟨remaining, by rw [taken, Option.bind_eq_bind, Option.bind_some, cut], left.symm⟩

/-- Both usage messages of a command end in a hint, and the hint works. Whoever sends what is written there to
the bot, in a channel where it can be answered, gets the help of the command and nothing else. No command
comes in between, whatever was added to the registry before or after the built-in commands. -/
theorem hint_answered {admitted : Group → Prop} {actions : BuiltinActions α} {above : List (Command α)}
    {c : Command α} (equipped : bot.registry.Equipped admitted actions)
    (helps : ∀ inv values, bot.perform actions.help inv values = Script.help.perform inv values)
    (place : bot.registry.Lineage above c) (human : message.authorIsBot = false)
    (gated : ∀ gate, bot.gate? = some gate → gate message bot.config = true)
    (content : message.content = bot.config.lead ++ "help " ++ c.fullName) :
    (∃ front, Help.branchUsage bot.config.lead c = front ++ "(Use `" ++ message.content ++ "` for more details)") ∧
    (∃ front, Help.leafUsage bot.config.lead c = front ++ "(Use `" ++ message.content ++ "` for more details)") ∧
    (∃ log result, (bot.handle message).run.Held log result ∧ ∀ e ∈ log, e.Welcomes message) ∧
    (∀ {log result}, (bot.handle message).run.Held log result → (∀ e ∈ log, e.Welcomes message) →
      result = .ok .handled ∧ ∃ time sent, log = [⟨.chat (.isBot message.author), .ok false⟩, ⟨.clock, time⟩,
        ⟨.chat (.send message.channel (Help.ofCommand bot.config.lead c)), .ok sent⟩]) ∧
    ∀ {w : World}, w.faults = [] → w.memory.bots.contains message.author = false →
      w.memory.undeliverable.contains message.channel = false →
      ∃ memory, (bot.handle message).run.advance w = (.ended (.ok .handled), [], { w with memory }) ∧
        memory.sent = w.memory.sent ++ [⟨w.memory.freshId, message.channel, w.memory.botUser, true,
          Help.ofCommand bot.config.lead c⟩] := by
  have hinted : Help.hint bot.config.lead c = "(Use `" ++ message.content ++ "` for more details)" := by
    rw [content, ← String.append_assoc, ← String.append_assoc]
    rfl
  have sound := equipped.reachable.sound
  obtain ⟨remaining, cut, left⟩ := cut_of_hint gated content
  have asked : bot.registry.follow? (words remaining) = some c := by
    rw [left]
    exact sound.resolve?_fullName place
  have explains := handle_eq_explain helps human cut equipped.command?_help asked
  refine ⟨?_, ?_, ?_, fun run welcome => held_explain (explains ▸ run) welcome,
    fun unfaulted unlisted delivers => ?_⟩
  · obtain ⟨front, shown⟩ := Help.exists_front_branchUsage bot.config.lead c
    exact ⟨front, by rw [shown, hinted, ← String.append_assoc, ← String.append_assoc]⟩
  · obtain ⟨front, shown⟩ := Help.exists_front_leafUsage bot.config.lead c
    exact ⟨front, by rw [shown, hinted, ← String.append_assoc, ← String.append_assoc]⟩
  · obtain ⟨log, result, run, clear⟩ := (bot.handle message).run.exists_clear_run
    exact ⟨log, result, run, fun e member => (clear e member).welcomes⟩
  · refine ⟨_, by rw [explains, advance_explain unfaulted unlisted delivers], ?_⟩
    rw [Memory.send, Memory.post, delivers]
    rfl

end Bot

namespace Helped

/-- A branch and a leaf below it. -/
def notes : Draft Routine where
  name := "Notes"
  documentation := ⟨"Keep notes", none, []⟩
  subcommands := [
    { name := "add", aliases := ["Help"], documentation := ⟨"Add a note", none, []⟩
      arguments := [{ name := "text" }], action? := some ⟨.echo, true⟩ }]

def config : Config := { owner := "1" }

/-- What a bot with these settings begins with. -/
def start : Registry Routine := (Registry.new.addBuiltins Routine.builtins).1

def bot : Bot Routine where
  registry := (start.register (.draft notes)).1
  config := config
  perform := Routine.perform

theorem equipped : bot.registry.Equipped Group.Made Routine.builtins := by
  have complete : (Registry.new.addBuiltins Routine.builtins).2.isNone = true := by decide +kernel
  have run : Registry.new.addBuiltins Routine.builtins = (start, none) :=
    Prod.ext rfl (Option.isNone_iff_eq_none.mp complete)
  have made : Registry.forConfig config Routine.builtins = .ok start := by
    rw [Registry.forConfig, run]
    rfl
  exact .step (Registry.equipped_of_forConfig rfl made) trivial

/-- A direct channel of somebody who does not own the bot. -/
def world : World := { memory := (Memory.new "0").markDirect "dm-2" }

def question : Message := ⟨"7", "dm-2", "2", false, "!help notes add"⟩

/-- The hint to a nested command is answered, in a direct channel too. -/
theorem hint_answered_direct :
    ∃ above c memory, bot.registry.Lineage above c ∧ c.fullName = "notes add" ∧
      (bot.handle question).run.advance world = (.ended (.ok .handled), [], { world with memory }) ∧
      memory.sent = [⟨"#0", "dm-2", "0", true,
        "`!notes add`: Add a note\n\n**Aliases**: `!help`\n\n**Usage**: `!notes add <text>`"⟩] := by
  have found : (bot.registry.resolve? "notes add").map (fun c => (c.fullName, Help.ofCommand "!" c)) = some
      ("notes add", "`!notes add`: Add a note\n\n**Aliases**: `!help`\n\n**Usage**: `!notes add <text>`") := by
    decide +kernel
  obtain ⟨c, resolved, shown⟩ := Option.map_eq_some_iff.mp found
  obtain ⟨named, explained⟩ := Prod.mk.inj shown
  obtain ⟨above, place, _⟩ := equipped.reachable.sound.follow?_eq_some.mp resolved
  have content : question.content = bot.config.lead ++ "help " ++ c.fullName := by
    rw [named]
    decide
  obtain ⟨_, _, _, _, answered⟩ := Bot.hint_answered equipped (fun _ _ => rfl) place rfl nofun content
  obtain ⟨memory, handled, sent⟩ := answered (w := world) rfl (by decide) rfl
  refine ⟨above, c, memory, place, named, handled, ?_⟩
  have lead : bot.config.lead = "!" := rfl
  rw [sent, lead, explained]
  rfl

end Helped

end ChatCommands
