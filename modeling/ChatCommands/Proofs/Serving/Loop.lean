import Mathlib.Logic.Relation
import ChatCommands.Dispatch
import ChatCommands.Inbox
import ChatCommands.Proofs.Chat.Progress

namespace ChatCommands

variable {α : Type} {bot : Bot α} {message : Message}

namespace Bot

/-- What the owner is told of a failure. -/
def failureNotice (message : Message) (e : CommandError) : String :=
  s!"Unhandled error while handling `{message.content}` from {mention message.author}: {e.message}"

/-- How far the task of a message can be: it handles the message, it is done since that went well, it is about to
tell the owner how that failed, or it has done so. What the platform answered to that is ignored. -/
inductive Attends (bot : Bot α) (message : Message) : List Exchange → Conversation Unit → Prop
  | handling {past request next} : (bot.handle message).run.Comes past (.ask request next) →
      Attends bot message past (.ask request fun answer => next answer >>= fun
        | .ok _ => pure ()
        | .error e => bot.reportFailure message e)
  | handled {past outcome} : (bot.handle message).run.Held past (.ok outcome) → Attends bot message past (pure ())
  | failed {past e} : (bot.handle message).run.Held past (.error e) →
      Attends bot message past (bot.reportFailure message e)
  | reported {past e answer} : (bot.handle message).run.Held past (.error e) →
      Attends bot message (past ++ [⟨.chat (.sendDirect bot.config.owner (failureNotice message e)), answer⟩]) (pure ())

theorem attends_of_comes {past : List Exchange} {rest : Conversation Unit}
    (comes : (bot.attend message).Comes past rest) : bot.Attends message past rest := by
  rcases Conversation.comes_bind_iff.mp comes with ⟨request, next, before, rfl⟩ | ⟨log, later, result, rfl, held, after⟩
  · exact .handling before
  · cases result with
    | ok outcome =>
      cases after
      rw [List.append_nil]
      exact .handled held
    | error e =>
      cases after with
      | start =>
        rw [List.append_nil]
        exact .failed held
      | ask after =>
        cases after
        exact .reported held

end Bot

namespace Serving

/-- The task of a message that was taken: what was exchanged in it so far, and what is left to do. -/
structure Handler where
  message : Message
  past : List Exchange
  rest : Conversation Unit

/-- A loop that serves an inbox, the tasks that it began, and what was ever sent to the inbox and taken from it. -/
structure State where
  inbox : Inbox
  shutdown : Bool
  ended : Bool := false
  handlers : List Handler := []
  sent : List Message
  taken : List Message := []

def State.start (inbox : Inbox) (shutdown : Bool) : State := { inbox, shutdown, sent := inbox.queue }

def asksToStop : Request → Bool
  | .requestShutdown => true
  | _ => false

/-- One move of anybody: of a sender, of whoever can ask for a shutdown, of the loop, or of a task. The loop may look
at the shutdown and at the inbox in any order; a task may be answered in any way. -/
inductive Step (bot : Bot α) : State → State → Prop
  | send {s : State} (message : Message) : s.ended = false → s.inbox.closed = false →
      Step bot s { s with inbox.queue := s.inbox.queue ++ [message], sent := s.sent ++ [message] }
  | close {s : State} : Step bot s { s with inbox.closed := true }
  | shutdown {s : State} : Step bot s { s with shutdown := true }
  | take {s : State} {message left} (stopFirst : Bool) : s.ended = false →
      s.inbox.turn s.shutdown stopFirst = .takes message left →
      Step bot s { s with inbox := left, taken := s.taken ++ [message],
                          handlers := s.handlers ++ [⟨message, [], bot.attend message⟩] }
  | stop {s : State} (stopFirst : Bool) : s.ended = false → s.inbox.turn s.shutdown stopFirst = .ends →
      Step bot s { s with ended := true }
  | move {s : State} {before after message past request next} {answer : request.Answer} :
      s.handlers = before ++ ⟨message, past, .ask request next⟩ :: after →
      Step bot s { s with handlers := before ++ ⟨message, past ++ [⟨request, answer⟩], next answer⟩ :: after,
                          shutdown := s.shutdown || asksToStop request }

/-- What holds of the loop and its tasks at any time. -/
structure Orderly (bot : Bot α) (s : State) : Prop where
  sent : s.sent = s.taken ++ s.inbox.queue
  handlers : s.handlers.map (·.message) = s.taken
  comes : ∀ h ∈ s.handlers, (bot.attend h.message).Comes h.past h.rest
  ended : s.ended = true → s.shutdown = true ∨ s.inbox.closed = true ∧ s.inbox.queue = []

end Serving

theorem Inbox.of_turn_ends {inbox : Inbox} {shutdown stopFirst : Bool}
    (ends : inbox.turn shutdown stopFirst = .ends) :
    shutdown = true ∨ inbox.closed = true ∧ inbox.queue = [] := by
  unfold turn at ends
  split at ends
  · rename_i empty
    split at ends
    · rename_i either
      exact (Bool.or_eq_true_iff.mp either).imp_right fun closed => ⟨closed, empty⟩
    · cases ends
  · split at ends
    · rename_i both
      exact .inl (Bool.and_eq_true_iff.mp both).1
    · cases ends

namespace Serving

variable {s after : State}

theorem orderly_start (inbox : Inbox) (shutdown : Bool) : Orderly bot (.start inbox shutdown) where
  sent := rfl
  handlers := rfl
  comes := nofun
  ended := nofun

theorem Orderly.step (orderly : Orderly bot s) (step : Step bot s after) : Orderly bot after := by
  obtain ⟨sent, handlers, comes, ended⟩ := orderly
  cases step with
  | send message going =>
    refine ⟨?_, handlers, comes, fun halted => ?_⟩
    · rw [sent, List.append_assoc]
    · cases going.symm.trans halted
  | close => exact ⟨sent, handlers, comes, fun halted => (ended halted).imp_right fun ⟨_, empty⟩ => ⟨rfl, empty⟩⟩
  | shutdown => exact ⟨sent, handlers, comes, fun _ => .inl rfl⟩
  | take _ going taken =>
    refine ⟨?_, ?_, ?_, fun halted => ?_⟩
    · rw [sent, Inbox.queue_of_turn_takes taken, List.append_assoc]
      rfl
    · rw [List.map_append, handlers]
      rfl
    · intro h member
      rcases List.mem_append.mp member with old | new
      · exact comes h old
      · obtain rfl := List.mem_singleton.mp new
        exact .start
    · cases going.symm.trans halted
  | stop _ _ ends => exact ⟨sent, handlers, comes, fun _ => Inbox.of_turn_ends ends⟩
  | @move before after message past request next answer split =>
    rw [split] at handlers comes
    refine ⟨sent, ?_, ?_, fun halted => ?_⟩
    · rw [← handlers, List.map_append, List.map_append]
      rfl
    · intro h member
      rcases List.mem_append.mp member with first | later
      · exact comes h (List.mem_append_left _ first)
      · rcases List.mem_cons.mp later with rfl | last
        · have own := comes _ (List.mem_append_right _ (List.mem_cons_self ..))
          exact own.trans (.ask .start)
        · exact comes h (List.mem_append_right _ (List.mem_cons_of_mem _ last))
    · exact (ended halted).imp_left fun asked => by rw [asked, Bool.true_or]

theorem orderly_of_steps {inbox : Inbox} {shutdown : Bool}
    (run : Relation.ReflTransGen (Step bot) (.start inbox shutdown) s) : Orderly bot s := by
  induction run with
  | refl => exact orderly_start inbox shutdown
  | tail _ step ih => exact ih.step step

/-- A task goes on for as long as it is answered. -/
theorem moves (before : List Handler) {after : List Handler} {message : Message} {past log : List Exchange}
    {rest rest' : Conversation Unit} (split : s.handlers = before ++ ⟨message, past, rest⟩ :: after)
    (comes : rest.Comes log rest') :
    Relation.ReflTransGen (Step bot) s
      { s with handlers := before ++ ⟨message, past ++ log, rest'⟩ :: after,
               shutdown := s.shutdown || log.any fun e => asksToStop e.request } := by
  induction comes generalizing s past with
  | start =>
    obtain ⟨inbox, shutdown, ended, handlers, sent, taken⟩ := s
    cases split
    rw [List.append_nil, List.any_nil, Bool.or_false]
    exact .refl
  | @ask request next answer log rest' _ ih =>
    have later := @ih
      { s with handlers := before ++ ⟨message, past ++ [⟨request, answer⟩], next answer⟩ :: after,
               shutdown := s.shutdown || asksToStop request } (past ++ [⟨request, answer⟩]) rfl
    rw [List.append_assoc, Bool.or_assoc] at later
    exact .head (.move split) later

namespace Sample

def greeter : Bot Unit where
  registry := .new
  config := { owner := "1" }
  perform _ _ _ := pure ()

/-- The platform cannot tell whether the author of the first message is a bot. -/
def first : Message := ⟨"a", "general", "2", false, "!ping"⟩

/-- The second message is from a bot, and is ignored. -/
def second : Message := ⟨"b", "general", "3", true, "!ping"⟩

def third : Message := ⟨"c", "general", "2", false, "!ping"⟩

def failure : ChatError := .runtime "lost"

def exchanges : List Exchange :=
  [⟨.chat (.isBot "2"), .error failure⟩,
    ⟨.chat (.sendDirect "1" (Bot.failureNotice first (.chat failure))), .error failure⟩]

theorem comes_first : (greeter.attend first).Comes exchanges (pure ()) := by
  unfold exchanges
  exact .ask (.ask .start)

/-- The first message failed twice, the second was ignored, and a shutdown came before the third. -/
def stopped : State where
  inbox := { queue := [third] }
  shutdown := true
  ended := true
  handlers := [⟨first, exchanges, pure ()⟩, ⟨second, [], pure ()⟩]
  sent := [first, second, third]
  taken := [first, second]

theorem reaches : Relation.ReflTransGen (Step greeter) (.start {} false) stopped := by
  refine .head (.send first rfl rfl) (.head (.take true rfl rfl) ?_)
  refine (moves [] rfl comes_first).trans ?_
  refine .head (.send second rfl rfl) (.head (.take true rfl rfl) ?_)
  exact .head .shutdown (.head (.send third rfl rfl) (.single (.stop true rfl rfl)))

end Sample

end Serving

end ChatCommands
