import ChatCommands.Invocation
import ChatCommands.Proofs.Menu.Consumption

namespace ChatCommands

open Conversation

variable {α : Type} {m after : Memory} {now : Nat} {log : List Exchange}

/-- A message that has just been sent. -/
def Memory.posted (m : Memory) (sent : Message) : Memory :=
  { m with
    live := setEntry sent.id sent m.live
    sent := m.sent ++ [sent] }

theorem Memory.post_eq {id : MessageId} {channel : ChannelId} {content : String} (delivers : channel ∉ m.undeliverable) :
    m.post id channel content =
      (.ok ⟨id, channel, m.botUser, true, content⟩, m.posted ⟨id, channel, m.botUser, true, content⟩) := by
  rw [Memory.post, if_neg]
  · rfl
  · exact fun refused => delivers (List.contains_iff_mem.mp refused)

/-- A menu of one round with a handler that keeps the first emoji: it ends with the first look at the queue. -/
theorem Menu.choice_of_runsOn {menu : Menu (Option String)} {ending : Menu.Ending (Option String)}
    (once : menu.options.maxRounds? = some 1) (chooses : menu.handler = chooser) (hosted : menu.Hosted m)
    (run : (menu.hold none).RunsOn m now log ending after) :
    log.filterMap Exchange.posted? = [] ∧
      ((∃ queue, Memory.offer menu.message.id menu.qualifies m.queued = (none, queue) ∧
          ending = ⟨none, 0, .ok .timedOut⟩ ∧ after = { menu.prepared m with queued := queue }) ∨
        ∃ event queue, Memory.offer menu.message.id menu.qualifies m.queued = (some event, queue) ∧
          ending = ⟨some event.emoji, 1, .ok .completed⟩ ∧ after = menu.served m event queue) := by
  have off : menu.handler.Asks Request.OffPlatform := by
    rw [chooses]
    exact asks_chooser
  obtain ⟨_, rfl, holds⟩ := held_hold_iff.mp run.held
  have answered := run.answered
  cases holds with
  | @farewell moves stop during left answer plays finished =>
    rw [List.flatMap_append] at answered
    obtain ⟨between, first, later⟩ := Memory.answers_append_iff.mp answered
    have rounds := rounds_of_plays plays off hosted first
    rw [chooses] at finished
    cases finished
    cases later
    rw [once] at rounds
    have single : menu.Rounds 1 0 false none m moves stop after := rounds
    cases single with
    | timedOut offered => exact ⟨rfl, .inl ⟨_, offered, rfl, rfl⟩⟩
    | ended offered handled ends =>
      rw [chooses] at handled
      cases handled
      cases ends
      exact ⟨rfl, .inr ⟨_, _, offered, rfl, rfl⟩⟩
    | continued _ handled =>
      rw [chooses] at handled
      cases handled

namespace Invocation

variable {inv : Invocation α} {question : String} {timeout? : Option Nat}

/-- Holds of the replies that answer a question to the invoker. -/
structure AnsweredBy (inv : Invocation α) (accepts : Message → Bool) (reply : Message) : Prop where
  channel : reply.channel = inv.channel
  author : reply.author = inv.author
  user : reply.authorIsBot = false
  accepted : accepts reply = true

/-- What comes of a question when `sent` is the message that asks it: the oldest reply that answers it is taken out of
the queue, or there is none. -/
inductive Replied (inv : Invocation α) (accepts : Message → Bool) (m : Memory) (sent : Message) :
    Except ChatError (Option String) → Memory → Prop
  | answered {front reply back} : m.replies = front ++ reply :: back → inv.AnsweredBy accepts reply →
      (∀ x ∈ front, ¬ inv.AnsweredBy accepts x) →
      Replied inv accepts m sent (.ok (some reply.content))
        { m.posted sent with
          live := setEntry reply.id reply (m.posted sent).live
          replies := front ++ back }
  | silent : (∀ x ∈ m.replies, ¬ inv.AnsweredBy accepts x) → Replied inv accepts m sent (.ok none) (m.posted sent)

theorem answeredBy_iff {accepts : Message → Bool} {reply : Message} : inv.AnsweredBy accepts reply ↔
    (reply.channel == inv.channel && (reply.author == inv.author && !reply.authorIsBot && accepts reply)) = true := by
  simp only [Bool.and_eq_true, beq_iff_eq, Bool.not_eq_true']
  exact ⟨fun ⟨here, own, user, fine⟩ => ⟨here, ⟨own, user⟩, fine⟩, fun ⟨here, ⟨own, user⟩, fine⟩ => ⟨here, own, user, fine⟩⟩

theorem replied_of_runsOn {accepts : Message → Bool} {result : Except ChatError (Option String)}
    (delivers : inv.channel ∉ m.undeliverable)
    (run : (inv.ask question timeout? accepts).run.RunsOn m now log result after) :
    ∃ sent : Message, sent.channel = inv.channel ∧ sent.content = question ∧
      log.filterMap Exchange.posted? = [sent] ∧ inv.Replied accepts m sent result after := by
  obtain ⟨id, _, _, _, posts, rfl, _, run⟩ := runsOn_chat_iff.mp run
  cases (Memory.post_eq delivers).symm.trans posts
  refine ⟨⟨id, inv.channel, m.botUser, true, question⟩, rfl, rfl, ?_⟩
  obtain ⟨_, _, _, _, looks, rfl, _, run⟩ := runsOn_chat_iff.mp run
  cases looks
  generalize same : (⟨id, inv.channel, m.botUser, true, question⟩ : Message) = sent at run ⊢
  rcases (m.posted sent).takeReply_cases inv.channel
      (fun reply => reply.author == inv.author && !reply.authorIsBot && accepts reply) with
    ⟨took, refused⟩ | ⟨front, reply, back, split, accepted, older, took⟩
  · rw [took] at run
    obtain ⟨rfl, rfl, rfl⟩ := runsOn_done_iff.mp run
    refine ⟨rfl, .silent fun x member answers => ?_⟩
    exact Bool.eq_false_iff.mp (refused x member) (answeredBy_iff.mp answers)
  · rw [took] at run
    obtain ⟨rfl, rfl, rfl⟩ := runsOn_done_iff.mp run
    refine ⟨rfl, .answered split (answeredBy_iff.mpr accepted) fun x member answers => ?_⟩
    exact Bool.eq_false_iff.mp (older x member) (answeredBy_iff.mp answers)

section

variable {emojis : List String} {anyone : Bool} {result : Except MenuError (Option String)}

/-- Holds of the reactions that answer a question to the invoker, or to anyone. -/
structure ChosenBy (inv : Invocation α) (emojis : List String) (anyone : Bool) (q : QueuedReaction) : Prop where
  untargeted : q.target? = none
  user : q.userIsBot = false
  allowed : anyone = true ∨ q.user = inv.author
  offered : q.emoji ∈ emojis

/-- What comes of such a question: the oldest reaction that answers it is taken out of the queue with all reactions
before it that have no target, or there is none. -/
inductive Reacted (inv : Invocation α) (emojis : List String) (anyone : Bool) (m : Memory) :
    Except MenuError (Option String) → Memory → Prop
  | chosen {front q back} {after : Memory} : m.queued = front ++ q :: back → inv.ChosenBy emojis anyone q →
      (∀ x ∈ front, ¬ inv.ChosenBy emojis anyone x) → after.queued = front.filter (·.target?.isSome) ++ back →
      Reacted inv emojis anyone m (.ok (some q.emoji)) after
  | silent {after : Memory} : (∀ x ∈ m.queued, ¬ inv.ChosenBy emojis anyone x) →
      after.queued = m.queued.filter (·.target?.isSome) → Reacted inv emojis anyone m (.ok none) after

/-- Nothing on the platform is about anything but one message, apart from what has become of untargeted reactions. -/
structure Undisturbed (m : Memory) (added : Message) (after : Memory) : Prop where
  sent : after.sent = m.sent ++ [added]
  deleted : after.deleted = m.deleted
  replies : after.replies = m.replies
  targeted : after.queued.filter (·.target?.isSome) = m.queued.filter (·.target?.isSome)
  messages : ∀ id, id ≠ added.id → after.message? id = m.message? id
  reactions : ∀ id, id ≠ added.id → after.reactionsOn id = m.reactionsOn id

theorem direct_of_runsOn (direct : inv.channel ∈ m.direct)
    (run : (inv.askReaction question emojis anyone timeout?).run.RunsOn m now log result after) :
    result = .error (.directMessage inv.channel) ∧ log.filterMap Exchange.posted? = [] ∧ after = m := by
  obtain ⟨_, _, _, _, looks, rfl, _, run⟩ := runsOn_chat_iff.mp run
  cases looks
  rw [List.contains_iff_mem.mpr direct] at run
  obtain ⟨rfl, rfl, rfl⟩ := runsOn_done_iff.mp run
  exact ⟨rfl, rfl, rfl⟩

theorem menu_of_runsOn (indirect : inv.channel ∉ m.direct) (delivers : inv.channel ∉ m.undeliverable)
    (run : (inv.askReaction question emojis anyone timeout?).run.RunsOn m now log result after) :
    ∃ (sent : Message) (own : List Exchange) (ending : Menu.Ending (Option String)),
      sent.channel = inv.channel ∧ sent.content = question ∧
      log.filterMap Exchange.posted? = sent :: own.filterMap Exchange.posted? ∧
      ((inv.choiceMenu emojis anyone timeout? sent).hold none).RunsOn (m.posted sent) now own ending after ∧
      result = match ending.outcome with
        | .error e => .error e
        | .ok _ => .ok ending.state := by
  obtain ⟨_, _, _, _, looks, rfl, _, run⟩ := runsOn_chat_iff.mp run
  cases looks
  rw [Bool.eq_false_iff.mpr fun direct => indirect (List.contains_iff_mem.mp direct)] at run
  obtain ⟨id, _, _, _, posts, rfl, _, run⟩ := runsOn_chat_iff.mp run
  cases (Memory.post_eq delivers).symm.trans posts
  obtain ⟨own, last, ending, between, rfl, held, run⟩ := Talk.runsOn_lift_bind_iff.mp run
  refine ⟨⟨id, inv.channel, m.botUser, true, question⟩, own, ending, rfl, rfl, ?_⟩
  cases ended : ending.outcome with
  | error e =>
    rw [ended] at run
    obtain ⟨rfl, rfl, rfl⟩ := runsOn_done_iff.mp run
    rw [List.append_nil]
    exact ⟨rfl, held, rfl⟩
  | ok termination =>
    rw [ended] at run
    obtain ⟨rfl, rfl, rfl⟩ := runsOn_done_iff.mp run
    rw [List.append_nil]
    exact ⟨rfl, held, rfl⟩

/-- No reaction that is queued is to a message that these exchanges bring. -/
def Fresh (m : Memory) (log : List Exchange) : Prop :=
  ∀ e ∈ log, ∀ message, e.posted? = some message → ∀ q ∈ m.queued, q.target? ≠ some message.id

section

variable {sent : Message} {q : QueuedReaction} (new : q.target? ≠ some sent.id)
include new

theorem isFor_eq : (!q.isFor sent.id) = q.target?.isSome := by
  rw [QueuedReaction.isFor]
  cases target : q.target? with
  | none => rfl
  | some id =>
    have differs : id ≠ sent.id := fun same => new (target.trans (congrArg some same))
    simpa using differs

theorem counts_iff : (inv.choiceMenu emojis anyone timeout? sent).counts q = true ↔ inv.ChosenBy emojis anyone q := by
  have mine : q.isFor sent.id = true ↔ q.target? = none := by
    rw [← Option.isNone_iff_eq_none, ← Option.not_isSome, ← isFor_eq new, Bool.not_not]
  have qualifies : (inv.choiceMenu emojis anyone timeout? sent).qualifies (q.seenOn sent.id) = true ↔
      q.userIsBot = false ∧ q.emoji ∈ emojis ∧ (anyone = true ∨ q.user = inv.author) := by
    simp [Menu.qualifies, choiceMenu, QueuedReaction.seenOn, and_assoc]
  rw [Menu.counts, Bool.and_eq_true]
  refine (and_congr mine qualifies).trans ⟨?_, ?_⟩
  · rintro ⟨untargeted, user, offered, allowed⟩
    exact ⟨untargeted, user, allowed, offered⟩
  · rintro ⟨untargeted, user, allowed, offered⟩
    exact ⟨untargeted, user, offered, allowed⟩

end

theorem undisturbed_of_prepared {sent : Message}
    (records : ((inv.choiceMenu emojis anyone timeout? sent).prepared (m.posted sent)).SameRecords after)
    (targeted : after.queued.filter (·.target?.isSome) = m.queued.filter (·.target?.isSome)) :
    Undisturbed m sent after where
  sent := records.sent
  deleted := records.deleted
  replies := records.replies
  targeted := targeted
  messages := fun id other => by
    have live : after.live = setEntry sent.id sent m.live := records.live
    rw [Memory.message?, live, lookup_setEntry, if_neg other]
    rfl
  reactions := fun id other => by
    have reactions : after.reactions = setEntry sent.id emojis.eraseDups (eraseEntry sent.id m.reactions) :=
      records.reactions
    rw [Memory.reactionsOn, reactions, lookup_setEntry, if_neg other, lookup_eraseEntry, if_neg other]
    rfl

theorem Fresh.target_ne {sent : Message} (fresh : Fresh m log) (posted : sent ∈ log.filterMap Exchange.posted?) :
    ∀ q ∈ m.queued, q.target? ≠ some sent.id := by
  obtain ⟨e, member, same⟩ := List.mem_filterMap.mp posted
  exact fresh e member sent same

section

variable {sent : Message}

theorem filter_isFor_eq {part : List QueuedReaction} (new : ∀ q ∈ part, q.target? ≠ some sent.id) :
    part.filter (!·.isFor sent.id) = part.filter (·.target?.isSome) :=
  List.filter_congr fun q member => isFor_eq (new q member)

theorem not_chosenBy_of_filter {part : List QueuedReaction} (new : ∀ q ∈ part, q.target? ≠ some sent.id)
    (nothing : part.filter (inv.choiceMenu emojis anyone timeout? sent).counts = []) :
    ∀ x ∈ part, ¬ inv.ChosenBy emojis anyone x := by
  intro x member chosen
  exact List.filter_eq_nil_iff.mp nothing x member ((counts_iff (new x member)).mpr chosen)

variable (new : ∀ q ∈ m.queued, q.target? ≠ some sent.id) {queue : List QueuedReaction}
include new

theorem silent_of_offer
    (offered : Memory.offer sent.id (inv.choiceMenu emojis anyone timeout? sent).qualifies m.queued = (none, queue)) :
    (∀ x ∈ m.queued, ¬ inv.ChosenBy emojis anyone x) ∧ queue = m.queued.filter (·.target?.isSome) := by
  obtain ⟨nothing, rfl⟩ := Menu.none_of_offer (inv.choiceMenu emojis anyone timeout? sent) [] m.queued
    (List.forall_mem_nil _) offered
  exact ⟨not_chosenBy_of_filter new nothing, filter_isFor_eq new⟩

theorem chosen_of_offer {event : Reaction}
    (offered : Memory.offer sent.id (inv.choiceMenu emojis anyone timeout? sent).qualifies m.queued =
      (some event, queue)) :
    ∃ front q back, m.queued = front ++ q :: back ∧ event.emoji = q.emoji ∧ inv.ChosenBy emojis anyone q ∧
      (∀ x ∈ front, ¬ inv.ChosenBy emojis anyone x) ∧ queue = front.filter (·.target?.isSome) ++ back := by
  obtain ⟨front, q, back, split, rfl, counted, one, rfl⟩ :=
    Menu.first_of_offer (inv.choiceMenu emojis anyone timeout? sent) [] m.queued (List.forall_mem_nil _) offered
  rw [split] at new
  obtain ⟨within, _⟩ := List.forall_mem_append.mp new
  obtain ⟨older, last⟩ := List.forall_mem_append.mp within
  have chosen := (counts_iff (last q (List.mem_singleton_self _))).mp counted
  have before : front.filter (inv.choiceMenu emojis anyone timeout? sent).counts = [] := by
    rw [List.filter_append, List.filter_cons_of_pos counted, List.filter_nil] at one
    exact List.append_left_eq_self.mp one
  refine ⟨front, q, back, split.trans (List.append_assoc ..), rfl, chosen, not_chosenBy_of_filter older before, ?_⟩
  have untargeted : [q].filter (·.target?.isSome) = [] := by simp [chosen.untargeted]
  have left : (front ++ [q]).filter (!·.isFor sent.id) = front.filter (·.target?.isSome) := by
    rw [filter_isFor_eq within, List.filter_append, untargeted, List.append_nil]
  rw [List.nil_append]
  exact congrArg (· ++ back) left

end

theorem reacted_of_runsOn (indirect : inv.channel ∉ m.direct) (delivers : inv.channel ∉ m.undeliverable)
    (permitted : inv.channel ∉ m.reactionsForbidden) (fresh : Fresh m log)
    (run : (inv.askReaction question emojis anyone timeout?).run.RunsOn m now log result after) :
    ∃ sent : Message, sent.channel = inv.channel ∧ sent.content = question ∧
      log.filterMap Exchange.posted? = [sent] ∧ inv.Reacted emojis anyone m result after ∧
      Undisturbed m sent after := by
  obtain ⟨sent, own, ending, here, asks, posts, held, rfl⟩ := menu_of_runsOn indirect delivers run
  have hosted : (inv.choiceMenu emojis anyone timeout? sent).Hosted (m.posted sent) := by
    refine ⟨isSome_lookup_setEntry.mpr (.inl rfl), fun forbidden => permitted ?_⟩
    rw [← here]
    exact forbidden
  obtain ⟨quiet, ends⟩ := Menu.choice_of_runsOn rfl rfl hosted held
  rw [quiet] at posts
  have new := fresh.target_ne (posts ▸ List.mem_singleton_self sent)
  refine ⟨sent, here, asks, posts, ?_⟩
  rcases ends with ⟨queue, offered, rfl, rfl⟩ | ⟨event, queue, offered, rfl, rfl⟩
  · obtain ⟨nobody, left⟩ := silent_of_offer new offered
    refine ⟨.silent nobody left, undisturbed_of_prepared ⟨rfl, rfl, rfl, rfl, rfl, rfl⟩ ?_⟩
    simp [left]
  · obtain ⟨front, q, back, split, same, chosen, older, left⟩ := chosen_of_offer new offered
    rw [same]
    refine ⟨.chosen split chosen older left, undisturbed_of_prepared ⟨rfl, rfl, rfl, rfl, rfl, rfl⟩ ?_⟩
    have untargeted : q.target?.isSome = false := by rw [chosen.untargeted, Option.isSome_none]
    simp [Menu.served, left, split, untargeted]

end

/-- In a direct channel there is no wait at all. -/
theorem not_overruns_of_direct {emojis : List String} {anyone : Bool} (direct : inv.channel ∈ m.direct) :
    ¬ (inv.askReaction question emojis anyone timeout?).run.Overruns m now := by
  rintro ⟨log, request, next, between, comes, answered, _, late⟩
  cases comes with
  | start => exact late nofun
  | ask comes =>
    obtain ⟨id, rfl, _⟩ := Memory.answers_chat_iff.mp answered
    have told : (m.respond id (.isDirect inv.channel)).1 = .ok true :=
      congrArg Except.ok (List.contains_iff_mem.mpr direct)
    rw [told] at comes
    cases comes

/-- Whatever is queued, only those who are asked are heard, and nobody else notices the question. A wait must begin so
early that a clock can show its end. -/
theorem hears_invoker (inv : Invocation α) (question : String) (timeout? : Option Nat) {w : World} (calm : w.Calm) :
    (∀ accepts, inv.channel ∉ w.memory.undeliverable →
      w.now + timeout?.getD (inv.config.promptTimeout * 1000) < World.clockEnd →
      (inv.ask question timeout? accepts).run.Achieves w fun log result after =>
        ∃ sent : Message, sent.channel = inv.channel ∧ sent.content = question ∧
          log.filterMap Exchange.posted? = [sent] ∧ inv.Replied accepts w.memory sent result after) ∧
    ∀ emojis anyone,
      (inv.channel ∈ w.memory.direct →
        (inv.askReaction question emojis anyone timeout?).run.Achieves w fun log result after =>
          result = .error (.directMessage inv.channel) ∧ log.filterMap Exchange.posted? = [] ∧ after = w.memory) ∧
      (inv.channel ∉ w.memory.direct → inv.channel ∉ w.memory.undeliverable →
        inv.channel ∉ w.memory.reactionsForbidden →
        w.now + timeout?.getD inv.menuOptions.timeout < World.clockEnd →
        (inv.askReaction question emojis anyone timeout?).run.Achieves w fun log result after => Fresh w.memory log →
          ∃ sent : Message, sent.channel = inv.channel ∧ sent.content = question ∧
            log.filterMap Exchange.posted? = [sent] ∧ inv.Reacted emojis anyone w.memory result after ∧
            Undisturbed w.memory sent after) := by
  have calls : ∀ call, Request.Immediate (.chat call) := fun _ => nofun
  refine ⟨fun accepts delivers short => ?_, fun emojis anyone => ⟨fun direct => ?_, ?_⟩⟩
  · exact Conversation.Asks.achieves (asks_ask calls) calm (hasty_ask.not_overruns short) (replied_of_runsOn delivers)
  · exact Conversation.Asks.achieves (asks_askReaction calls) calm (not_overruns_of_direct direct)
      (direct_of_runsOn direct)
  · intro indirect delivers permitted short
    refine Conversation.Asks.achieves (asks_askReaction calls) calm (hasty_askReaction.not_overruns short) ?_
    exact fun run fresh => reacted_of_runsOn indirect delivers permitted fresh run

namespace Sample

def asking : Invocation Unit := ⟨.new, { owner := "1" }, ⟨"5", "hall", "ann", false, "!pick"⟩, 0⟩

/-- The same person, in her direct channel. -/
def whispering : Invocation Unit := ⟨.new, { owner := "1" }, ⟨"6", "dm-ann", "ann", false, "!pick"⟩, 0⟩

/-- Replies and reactions of several people. The last of each is the first that answers. -/
def busy : Memory :=
  { Memory.new "0" with
    direct := ["dm-ann"]
    replies := [⟨"1", "hall", "bob", false, "me"⟩, ⟨"2", "lobby", "ann", false, "there"⟩, ⟨"3", "hall", "ann", false, "yes"⟩]
    queued := [⟨some "8", "a", "ann", false⟩, ⟨none, "a", "bob", false⟩, ⟨none, "b", "ann", false⟩] }

theorem content_of_replied {sent : Message} {result : Except ChatError (Option String)} {after : Memory}
    (replied : asking.Replied (fun _ => true) busy sent result after) : result = .ok (some "yes") := by
  have answers : asking.AnsweredBy (fun _ => true) ⟨"3", "hall", "ann", false, "yes"⟩ := ⟨rfl, rfl, rfl, rfl⟩
  cases replied with
  | @answered front reply back split answered older =>
    rcases front with _ | ⟨_, _ | ⟨_, _ | ⟨_, front⟩⟩⟩
    · cases split
      exact absurd answered.author (by decide)
    · cases split
      exact absurd answered.channel (by decide)
    · cases split
      rfl
    · cases front <;> cases split
  | silent none => exact absurd answers (none _ (by decide +kernel))

theorem queued_of_reacted {result : Except MenuError (Option String)} {after : Memory}
    (reacted : asking.Reacted ["a", "b"] false busy result after) :
    result = .ok (some "b") ∧ after.queued = [⟨some "8", "a", "ann", false⟩] := by
  have chosen : asking.ChosenBy ["a", "b"] false ⟨none, "b", "ann", false⟩ := ⟨rfl, rfl, .inr rfl, by decide⟩
  cases reacted with
  | @chosen front q back _ split chosen older queued =>
    rcases front with _ | ⟨_, _ | ⟨_, _ | ⟨_, front⟩⟩⟩
    · cases split
      exact absurd chosen.untargeted (by decide)
    · cases split
      exact absurd chosen.allowed (by decide)
    · cases split
      exact ⟨rfl, queued⟩
    · cases front <;> cases split
  | silent none => exact absurd chosen (none _ (by decide +kernel))

end Sample

/-- The bot waits for the invoker to reply and to react, and does not ask for a reaction in a direct channel. -/
theorem hears_invoker_busy :
    (∃ turns after,
      (∀ more, turns ≤ more → Session.run more
        { world := { memory := Sample.busy }, ready := [.main (Sample.asking.ask "Sure?" none fun _ => true).run none] } = after) ∧
      after.result? = some (.ok (some "yes"))) ∧
    (∃ log after, (Sample.asking.askReaction "Which?" ["a", "b"] false none).run.RunsOn Sample.busy 0 log
      (.ok (some "b")) after ∧ after.queued = [⟨some "8", "a", "ann", false⟩]) ∧
    ∃ turns after,
      (∀ more, turns ≤ more → Session.run more
        { world := { memory := Sample.busy }
          ready := [.main (Sample.whispering.askReaction "Which?" ["a", "b"] false none).run none] } = after) ∧
      after.result? = some (.error (.directMessage "dm-ann")) ∧ after.world.memory = Sample.busy := by
  have calm : World.Calm { memory := Sample.busy } := ⟨rfl, rfl⟩
  have asked := (hears_invoker Sample.asking "Sure?" none calm).1 (fun _ => true) (by decide) (by decide +kernel)
  have offered := ((hears_invoker Sample.asking "Which?" none calm).2 ["a", "b"] false).2
    (by decide) (by decide) (by decide) (by decide +kernel)
  have refused := ((hears_invoker Sample.whispering "Which?" none calm).2 ["a", "b"] false).1 (by decide)
  refine ⟨?_, ?_, ?_⟩
  · obtain ⟨turns, after, result, log, rests, ended, run⟩ := asked.sessions
    obtain ⟨_, _, _, _, replied⟩ := asked.holds run
    obtain rfl := Sample.content_of_replied replied
    exact ⟨turns, after, rests, ended⟩
  · obtain ⟨log, result, after, run, named⟩ := offered.ends "9"
    have fresh : Fresh Sample.busy log := by
      intro e member message posted
      rw [named e member message posted]
      decide +kernel
    obtain ⟨_, _, _, _, reacted, _⟩ := offered.holds run fresh
    obtain ⟨rfl, queued⟩ := Sample.queued_of_reacted reacted
    exact ⟨log, after, run, queued⟩
  · obtain ⟨turns, after, result, log, rests, ended, run⟩ := refused.sessions
    obtain ⟨rfl, _, untouched⟩ := refused.holds run
    exact ⟨turns, after, rests, ended, untouched⟩

/-- A question whose wait would end too late is asked, and that is all. -/
theorem advance_ask_of_late {accepts : Message → Bool} {w : World} (calm : w.Calm)
    (delivers : inv.channel ∉ w.memory.undeliverable)
    (late : World.clockEnd ≤ w.now + timeout?.getD (inv.config.promptTimeout * 1000)) :
    (inv.ask question timeout? accepts).run.advance w =
      (.crashed, [], { w with
        memory := w.memory.posted ⟨w.memory.freshId, inv.channel, w.memory.botUser, true, question⟩ }) := by
  have posts : w.perform (.send inv.channel question) =
      (.ok ⟨w.memory.freshId, inv.channel, w.memory.botUser, true, question⟩, { w with
        memory := w.memory.posted ⟨w.memory.freshId, inv.channel, w.memory.botUser, true, question⟩ }) := by
    rw [Memory.perform_eq, World.onMemory]
    simp only [Memory.respond, Memory.post_eq delivers]
  refine (advance_of_perform calm rfl posts).trans ?_
  exact advance_of_late ⟨calm.faults, calm.intact⟩ rfl late

namespace Sample

def boundlessText : String := "\x7b\"owner\":\"1\",\"prompt_timeout_secs\":18446744073709551615\x7d"

/-- The invocation with settings under which a question waits for longer than clocks go. -/
def boundless : Invocation Unit := { asking with config := { owner := "1", promptTimeout := 18446744073709551615 } }

end Sample

/-- The settings are accepted, and under them a question to which a reply is queued is asked and has no outcome. The reply
stays in the queue. -/
theorem accepted_question_overruns :
    Config.ofText Sample.boundlessText = .ok Sample.boundless.config ∧
    (∃ reply ∈ Sample.busy.replies, Sample.boundless.AnsweredBy (fun _ => true) reply) ∧
    ∃ sent : Message, sent.channel = Sample.boundless.channel ∧ sent.content = "Sure?" ∧
      ({ world := { memory := Sample.busy } } : Session (Except ChatError (Option String))).hold
        (Sample.boundless.ask "Sure?" none fun _ => true).run =
          (none, { world := { memory := Sample.busy.posted sent, crashed := true } }) ∧
      (Sample.busy.posted sent).replies = Sample.busy.replies := by
  have read : Config.ofText Sample.boundlessText = .ok Sample.boundless.config := by decide +kernel
  have late : World.clockEnd ≤ 0 + Option.getD none (Sample.boundless.config.promptTimeout * 1000) := by decide +kernel
  have answers : Sample.boundless.AnsweredBy (fun _ => true) ⟨"3", "hall", "ann", false, "yes"⟩ := ⟨rfl, rfl, rfl, rfl⟩
  have calm : World.Calm { memory := Sample.busy } := ⟨rfl, rfl⟩
  have delivers : Sample.boundless.channel ∉ Sample.busy.undeliverable := by decide
  refine ⟨read, ⟨_, by decide, answers⟩, ⟨Sample.busy.freshId, "hall", "0", true, "Sure?"⟩, rfl, rfl, ?_, rfl⟩
  exact Session.hold_of_crashed (advance_ask_of_late calm delivers late)

end Invocation

end ChatCommands
