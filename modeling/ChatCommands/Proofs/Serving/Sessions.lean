import ChatCommands.Proofs.Session.History

namespace ChatCommands

open Serving

variable {α ρ : Type} {bot : Bot α}

namespace Session

/-- A loop that serves a session. Its inbox is empty, since each message is taken at once, and its tasks are those of the
session, but for those that are done or crashed. -/
structure Hosts (s : Session ρ) (handlers : List Handler) (state : State) : Prop where
  began : state.handlers = handlers
  inbox : state.inbox = {}
  going : state.ended = false
  shutdown : state.shutdown = s.world.shutdown
  tasks : ∃ gone, (handlers.map (·.rest)).Perm (s.asides ++ gone) ∧ ∀ c ∈ gone, c = pure () ∨ s.world.crashed = true

variable {origin : Memory} {handlers : List Handler} {s : Session ρ}

/-- What is done in a session, one thing after another, is a run of the loop. -/
theorem Traced.exists_run (traced : s.Traced bot.attend origin handlers) :
    ∃ begun state, Relation.ReflTransGen (Serving.Step bot) (.start {} begun) state ∧ s.Hosts handlers state := by
  have served : ∃ begun state, Relation.ReflTransGen (Serving.Step bot) (.start {} begun) state ∧
      state.handlers = handlers ∧ state.inbox = {} ∧ state.ended = false ∧ state.shutdown = s.world.shutdown := by
    induction traced with
    | @start w => exact ⟨w.shutdown, _, .refl, rfl, rfl, rfl, rfl⟩
    | deliver message _ serving ih =>
      obtain ⟨begun, ⟨_, _, _, _, _, _⟩, run, rfl, rfl, rfl, shutdown⟩ := ih
      cases shutdown.trans (shutdown_of_isServing serving)
      exact ⟨begun, _, (run.tail (.send message rfl rfl)).tail (.take true rfl rfl), rfl, rfl, rfl, shutdown⟩
    | @turn before h behind s due? rest log left _ ready takes ih =>
      obtain ⟨begun, state, run, split, inbox, going, shutdown⟩ := ih
      have signals : s.world.Signals (takeTurn { s with ready := rest } (.aside h.rest due?)).world _ :=
        signals_settleTurn takes.signals
      refine ⟨begun, _, run.trans (moves before split takes.comes), rfl, inbox, going, ?_⟩
      rw [signals.shutdown, shutdown]
    | move _ move ih =>
      obtain ⟨begun, state, run, same, inbox, going, shutdown⟩ := ih
      obtain ⟨⟨asked, signals⟩, _⟩ := move.spares
      cases asked with
      | false => exact ⟨begun, state, run, same, inbox, going, by rw [shutdown, signals.shutdown, Bool.or_false]⟩
      | true => exact ⟨begun, _, run.tail .shutdown, same, inbox, going, by rw [signals.shutdown, Bool.or_true]⟩
  obtain ⟨begun, state, run, same, inbox, going, shutdown⟩ := served
  exact ⟨begun, state, run, same, inbox, going, shutdown, traced.asides⟩

end Session

namespace Serving

/-- However the moves of senders, of the loop and of its tasks are interleaved, messages are taken in the order in
which they were sent, each becomes the business of one task, and that handles it once and reports to the owner just
when that failed. The loop ends for no other reason than a shutdown, or an inbox that is closed and empty.

What is done in a session is such a run. All messages that were delivered have been taken, and their tasks have exchanged
what the session has answered them. -/
theorem serves_in_order :
    (∀ {inbox shutdown s}, Relation.ReflTransGen (Step bot) (.start inbox shutdown) s →
      s.sent = s.taken ++ s.inbox.queue ∧
      s.handlers.map (·.message) = s.taken ∧
      (∀ h ∈ s.handlers, bot.Attends h.message h.past h.rest) ∧
      (s.ended = true → s.shutdown = true ∨ s.inbox.closed = true ∧ s.inbox.queue = [])) ∧
    ∀ {ρ : Type} {origin sent} {session : Session ρ}, session.Reached bot.attend origin sent →
      ∃ handlers begun s, session.Traced bot.attend origin handlers ∧
        Relation.ReflTransGen (Step bot) (.start {} begun) s ∧ session.Hosts handlers s ∧
        s.sent = sent ∧ s.taken = sent := by
  refine ⟨fun run => ?_, fun reached => ?_⟩
  · have orderly := orderly_of_steps run
    exact ⟨orderly.sent, orderly.handlers, fun h member => Bot.attends_of_comes (orderly.comes h member), orderly.ended⟩
  · obtain ⟨handlers, traced, rfl⟩ := reached.follows
    obtain ⟨begun, s, run, hosts⟩ := traced.exists_run
    have orderly := orderly_of_steps run
    have taken : s.taken = handlers.map (·.message) := by rw [← orderly.handlers, hosts.began]
    refine ⟨handlers, begun, s, traced, run, hosts, ?_, taken⟩
    rw [orderly.sent, taken, hosts.inbox, List.append_nil]

namespace Sample

/-- A session to which one message is delivered. -/
def evening : Session Unit := (Session.deliver greeter.attend { world := { memory := .new "0" } } second).2

theorem reached_evening : evening.Reached greeter.attend (.new "0") [second] := by
  have began : Session.Reached greeter.attend (.new "0") [] ({ world := { memory := .new "0" } } : Session Unit) :=
    .start rfl
  exact began.deliver second

end Sample

/-- A task that failed has told the owner once, though that failed as well. The message that is delivered in a session is
taken. -/
theorem serves_in_order_stopped :
    Relation.ReflTransGen (Step Sample.greeter) (.start {} false) Sample.stopped ∧
      Sample.stopped.taken ++ [Sample.third] = Sample.stopped.sent ∧
      Sample.greeter.Attends Sample.first Sample.exchanges (pure ()) ∧ Sample.stopped.shutdown = true ∧
      Sample.evening.Reached Sample.greeter.attend (.new "0") [Sample.second] ∧
      ∃ handlers s, Sample.evening.Traced Sample.greeter.attend (.new "0") handlers ∧
        Sample.evening.Hosts handlers s ∧ s.taken = [Sample.second] := by
  obtain ⟨runs, sessions⟩ := @serves_in_order _ Sample.greeter
  obtain ⟨sent, _, attends, ended⟩ := runs Sample.reaches
  refine ⟨Sample.reaches, sent.symm, attends _ (List.mem_cons_self ..), ?_, Sample.reached_evening, ?_⟩
  · exact (ended rfl).resolve_right fun ⟨_, empty⟩ => nomatch empty
  · obtain ⟨handlers, _, s, traced, _, hosts, _, taken⟩ := sessions Sample.reached_evening
    exact ⟨handlers, s, traced, hosts, taken⟩

end Serving

end ChatCommands
