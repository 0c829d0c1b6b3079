import ChatCommands.Proofs.Session.History
import ChatCommands.Proofs.Waiting.Resting

namespace ChatCommands

open Waiting

/-- What a call waits for, if it waits for an event. -/
def ChatCall.wait? : ChatCall → Option Wait
  | .awaitReply channel accepts _ => some (.reply channel accepts)
  | .awaitReaction message accepts _ => some (.reaction message accepts)
  | _ => none

/-- The event that a call yields, if it yields one. -/
def ChatCall.found? : (call : ChatCall) → call.Value → Option Found
  | .awaitReply _ _ _, reply? => reply?.map .reply
  | .awaitReaction _ _ _, reaction? => reaction?.map .reaction
  | _, _ => none

namespace ChatCall

variable {call : ChatCall}

theorem exists_wait (waits : call.timeout?.isSome = true) : ∃ wait, call.wait? = some wait := by
  cases call with
  | awaitReply | awaitReaction => exact ⟨_, rfl⟩
  | _ => cases waits

theorem wait?_of_prompt (prompt : call.timeout? = none) : call.wait? = none := by
  cases call with
  | awaitReply | awaitReaction => cases prompt
  | _ => rfl

theorem inVain_iff {value : call.Value} (waits : call.timeout?.isSome = true) :
    call.inVain (.ok value) = true ↔ call.found? value = none := by
  cases call with
  | awaitReply | awaitReaction =>
    cases value with
    | none => exact iff_of_true rfl rfl
    | some => exact iff_of_false Bool.false_ne_true (Option.some_ne_none _)
  | _ => cases waits

end ChatCall

namespace Memory

variable {m : Memory} {message : Message}

theorem sameQueues_post {id : MessageId} {channel : ChannelId} {content : String} :
    m.SameQueues (m.post id channel content).2 := by
  unfold post
  split <;> exact .refl m

theorem sameQueues_edit {content : String} : m.SameQueues (m.edit message content).2 := by
  unfold edit
  split <;> exact .refl m

theorem sameQueues_delete : m.SameQueues (m.delete message).2 := by
  unfold delete
  split <;> exact .refl m

theorem sameQueues_withReactions {β : Type} {operation : Except ChatError β × Memory}
    (same : m.SameQueues operation.2) : m.SameQueues (m.withReactions message operation).2 := by
  unfold withReactions
  split
  · exact .refl m
  · exact same

theorem sameQueues_setReactions {emojis : List String} : m.SameQueues (m.setReactions message emojis).2 := by
  refine sameQueues_withReactions ?_
  split <;> exact .refl m

end Memory

namespace World

variable {w after : World} {call : ChatCall}

theorem take_of_perform {wait : Wait} {answer : Except ChatError call.Value} (waits : call.wait? = some wait)
    (run : w.perform call = (answer, after)) :
    ∃ value, answer = .ok value ∧ wait.take w.memory = (call.found? value, after.memory) := by
  cases call with
  | awaitReply | awaitReaction =>
    cases waits
    cases run
    exact ⟨_, rfl, rfl⟩
  | _ => cases waits

theorem memory_of_fault {name : String} {fault? : Option ChatError} (met : w.meetFault name = (fault?, after)) :
    after.memory = w.memory := by
  unfold meetFault at met
  split at met <;> cases met <;> rfl

theorem sameQueues_of_perform {answer : Except ChatError call.Value} (prompt : call.wait? = none)
    (look : w.perform call = (answer, after)) : w.memory.SameQueues after.memory := by
  obtain rfl : (w.perform call).2 = after := congrArg Prod.snd look
  cases call with
  | awaitReply | awaitReaction => cases prompt
  | isBot | isDirect => exact .refl w.memory
  | send | sendDirect => exact Memory.sameQueues_post
  | edit => exact Memory.sameQueues_edit
  | delete => exact Memory.sameQueues_delete
  | setReactions => exact Memory.sameQueues_setReactions
  | clearReactions | removeReaction =>
    exact Memory.sameQueues_withReactions ⟨rfl, rfl⟩

theorem Looks.take {due? : Option Nat} {due : Nat} {answer : Except ChatError call.Value}
    (looks : w.Looks call due? due answer after) : ∃ wait, call.wait? = some wait ∧
      ∃ value, answer = .ok value ∧ wait.take w.memory = (call.found? value, after.memory) := by
  obtain ⟨wait, waits⟩ := ChatCall.exists_wait looks.waits
  refine ⟨wait, waits, ?_⟩
  cases looks with
  | first look _ passed =>
    rw [← memory_of_fault passed]
    exact take_of_perform waits look
  | again look => exact take_of_perform waits look

theorem Meets.sameQueues {answer : Except ChatError call.Value} (meets : w.Meets none (.chat call) answer after)
    (prompt : call.timeout? = none) : w.memory.SameQueues after.memory := by
  cases meets with
  | fails faulted => exact .of_eq (memory_of_fault faulted)
  | performs _ passed look =>
    rw [← memory_of_fault passed]
    exact sameQueues_of_perform (ChatCall.wait?_of_prompt prompt) look
  | looks looks => exact absurd looks.waits (by rw [prompt]; exact Bool.false_ne_true)

end World

variable {β ρ : Type}

/-- What a conversation waits for, when it has stopped to wait for an event. -/
def Conversation.wait? : Conversation β → Option Wait
  | ask (.chat call) _ => call.wait?
  | _ => none

def Turn.wait? : Turn β → Option Wait
  | waits _ rest => rest.wait?
  | _ => none

/-- A turn does to the queue what some moves of waiters do. `began` is what its conversation waited for
before. When the conversation stops to wait for an event, there is none for it. -/
structure Interleaves (m : Memory) (began : List Wait) (turn : Turn β × PutOff × World) : Prop where
  settles : ∀ {s : State} {waits}, s.Rests m (began ++ waits) →
    s.Settles turn.2.2.memory (turn.1.wait?.toList ++ waits)
  fewer : turn.2.2.memory.events ⊆ m.events
  idle : ∀ {wait}, turn.1.wait? = some wait → wait.Idle turn.2.2.memory

namespace Interleaves

variable {m after : Memory} {began : List Wait} {wait : Wait} {turn : Turn β × PutOff × World} {w : World}

/-- Before the turn goes on, the waiter whose turn it is makes some moves. -/
theorem bind (later : Interleaves after [] turn) (fewer : after.events ⊆ m.events)
    (settles : ∀ {s : State} {waits}, s.Rests m (began ++ waits) → s.Settles after waits) :
    Interleaves m began turn where
  settles rests := (settles rests).bind fun _ rests' => later.settles rests'
  fewer := List.Subset.trans later.fewer fewer
  idle := later.idle

theorem other (later : Interleaves after [] turn) (same : m.SameQueues after) : Interleaves m [] turn :=
  later.bind (fun _ member => same.events_eq ▸ member) (·.other same)

/-- The turn stops, for another reason than an event to wait for. -/
theorem stop (none : turn.1.wait? = none) (same : m.SameQueues turn.2.2.memory) : Interleaves m [] turn where
  settles rests := by
    rw [none]
    exact rests.other same
  fewer _ member := same.events_eq ▸ member
  idle waits := nomatch none.symm.trans waits

section

variable (before : began = [] ∨ began = [wait])
include before

theorem finds {found : Found} (later : Interleaves after [] turn) (took : wait.take m = (some found, after)) :
    Interleaves m began turn := by
  refine later.bind (Wait.subset_of_take took) fun rests => ?_
  rcases before with rfl | rfl
  · exact rests.finds took
  · exact rests.finds_again took

theorem settles_in_vain {s : State} {waits : List Wait} (rests : s.Rests m (began ++ waits))
    (took : wait.take m = (none, after)) : s.Settles after (wait :: waits) := by
  rcases before with rfl | rfl
  · exact rests.sleeps took
  · exact rests.sleeps_again took

theorem expires (later : Interleaves after [] turn) (took : wait.take m = (none, after)) :
    Interleaves m began turn :=
  later.bind (Wait.subset_of_take took) fun rests =>
    (settles_in_vain before rests took).bind fun _ rests' => rests'.expires

theorem sleeps {due : Nat} {rest : Conversation β} {putOff : PutOff} (waits : rest.wait? = some wait)
    (took : wait.take m = (none, w.memory)) : Interleaves m began (.waits due rest, putOff, w) where
  settles rests := by
    rw [Turn.wait?, waits]
    exact settles_in_vain before rests took
  fewer := Wait.subset_of_take took
  idle same := by
    cases waits.symm.trans same
    exact Wait.idle_of_take took

end

end Interleaves

namespace Conversation

variable {c : Conversation β} {due? : Option Nat} {w : World}

theorem began_of_waits (due? : Option Nat) {wait : Wait} (waits : c.wait? = some wait) :
    (due?.bind fun _ => c.wait?).toList = [] ∨ (due?.bind fun _ => c.wait?).toList = [wait] := by
  cases due? with
  | none => exact .inl rfl
  | some => exact .inr (congrArg Option.toList waits)

theorem wait?_of_busy (busy : ¬ c.Waits) : c.wait? = none := by
  cases c with
  | done => rfl
  | ask request next =>
    cases request with
    | chat call =>
      cases call with
      | awaitReply | awaitReaction => exact absurd trivial busy
      | _ => rfl
    | _ => rfl

/-- A turn does what its conversation waited for before, and what it waits for on the way. -/
theorem Advances.interleaves {turn : Turn β × PutOff × World} (advances : c.Advances due? w turn) :
    Interleaves w.memory (due?.bind fun _ => c.wait?).toList turn := by
  induction advances with
  | done => exact .stop rfl (.refl _)
  | @ask due? request next answer w between turn putOff after meets _ ih =>
    have later : Interleaves between.memory [] (turn, request.putOff ++ putOff, after) :=
      ⟨ih.settles, ih.fewer, ih.idle⟩
    cases meets with
    | fails faulted => exact later.other (.of_eq (World.memory_of_fault faulted))
    | performs prompt passed look => exact later.other (World.Meets.sameQueues (.performs prompt passed look) prompt)
    | looks looks =>
      obtain ⟨wait, waits, value, _, took⟩ := looks.take
      cases found : ChatCall.found? _ value with
      | none => exact later.expires (began_of_waits due? waits) (found ▸ took)
      | some => exact later.finds (began_of_waits due? waits) (found ▸ took)
    | paused => cases due? <;> exact later
    | _ => exact later.other (.refl _)
  | @sleeps due? call next due answer w after looks vain _ =>
    obtain ⟨wait, waits, value, rfl, took⟩ := looks.take
    rw [(ChatCall.inVain_iff looks.waits).mp vain] at took
    have own : (Conversation.ask (.chat call) next).wait? = some wait := waits
    exact .sleeps (began_of_waits due? own) own took
  | @pauses due? => cases due? <;> exact .stop rfl (.refl _)
  | crashed _ passed => exact .stop rfl (.of_eq (World.memory_of_fault passed))
  | @busy due c w turn busy _ ih =>
    rw [Option.bind_some, wait?_of_busy busy]
    exact ih

end Conversation

/-- What a task waits for, when it has stopped to wait for an event. -/
def Task.wait? : Task ρ → Option Wait
  | main talk (some _) => talk.wait?
  | aside talk (some _) => talk.wait?
  | _ => none

theorem Conversation.awaitsEvent_of_wait? {c : Conversation β} {wait : Wait} (waits : c.wait? = some wait) :
    c.awaitsEvent = true := by
  cases c with
  | done => cases waits
  | ask request next =>
    cases request with
    | chat call =>
      cases call with
      | awaitReply | awaitReaction => rfl
      | _ => cases waits
    | _ => cases waits

theorem Task.wait?_of_due {t : Task ρ} (early : t.due? = none) : t.wait? = none := by
  cases t with
  | main talk due? | aside talk due? =>
    obtain rfl : due? = none := early
    rfl
  | later => rfl

theorem Task.awaitsEvent_of_wait? {t : Task ρ} {wait : Wait} (waits : t.wait? = some wait) :
    t.awaitsEvent = true := by
  unfold wait? at waits
  split at waits
  · exact Conversation.awaitsEvent_of_wait? waits
  · exact Conversation.awaitsEvent_of_wait? waits
  · cases waits

namespace Session

/-- What the tasks of a session wait for that have stopped to wait for an event. -/
def waits (s : Session ρ) : List Wait := (s.ready ++ s.waiting).filterMap Task.wait?

/-- Some of the waiting tasks are called up. -/
theorem waits_called (s : Session ρ) (p : Task ρ → Bool) :
    s.waits.Perm ((s.ready ++ s.waiting.filter p ++ s.waiting.filter (!p ·)).filterMap Task.wait?) := by
  rw [List.append_assoc]
  exact ((List.filter_append_perm ..).symm.append_left _).filterMap _

/-- The sleepers of a state stand for the tasks of a session that wait for an event. For a task that has not
been called up again there is none. -/
structure Mirrors (s : Session ρ) (state : State) : Prop where
  rests : state.Rests s.world.memory s.waits
  idle : ∀ t ∈ s.waiting, ∀ {wait}, t.wait? = some wait → wait.Idle s.world.memory

/-- What has been done in a session, on a platform that began as `origin`, has been done by waiters and
pushers in some order. -/
def Interleaved (origin : Memory) (s : Session ρ) : Prop :=
  ∃ state, Relation.ReflTransGen Waiting.Step (.start origin) state ∧ s.Mirrors state

namespace Interleaved

variable {origin : Memory} {s after : Session ρ} {task : Task ρ} {rest : List (Task ρ)}

theorem start (w : World) : Interleaved w.memory ({ world := w } : Session ρ) :=
  ⟨_, .refl, ⟨rfl, .nil, List.forall_mem_nil _⟩, List.forall_mem_nil _⟩

/-- Tasks that do not wait for an event come and go, tasks are called up, and the platform does other things. -/
theorem other (done : Interleaved origin s) (same : s.world.memory.SameQueues after.world.memory)
    (waits : s.waits.Perm after.waits) (waiting : ∀ t ∈ after.waiting, t ∈ s.waiting ∨ t.wait? = none) :
    Interleaved origin after := by
  obtain ⟨state, run, rests, idle⟩ := done
  obtain ⟨state', more, rests'⟩ := rests.other same
  refine ⟨state', run.trans more, rests'.perm waits, fun t member {wait} awaits => ?_⟩
  rcases waiting t member with before | none
  · exact (idle t before awaits).of_subset fun _ within => same.events_eq ▸ within
  · cases none.symm.trans awaits

theorem forget (done : Interleaved origin s) : Interleaved origin { s with result? := none } :=
  done.other (.refl _) (.refl _) fun _ member => .inl member

theorem push (done : Interleaved origin s) (push : Push) (memory : after.world.memory = push.onto s.world.memory)
    (waits : s.waits.Perm after.waits) (waiting : ∀ t ∈ after.waiting, t.wait? = none) :
    Interleaved origin after := by
  obtain ⟨state, run, rests, _⟩ := done
  obtain ⟨state', more, rests'⟩ := rests.push push
  rw [← memory] at rests'
  refine ⟨state', run.trans more, rests'.perm waits, fun t member {wait} awaits => ?_⟩
  cases (waiting t member).symm.trans awaits

theorem occur (done : Interleaved origin s) (event : Happening) : Interleaved origin (s.occur event) := by
  have called := s.waits_called (·.awaitsEvent)
  have left : ∀ t ∈ s.waiting.filter (!·.awaitsEvent), t.wait? = none := by
    refine fun t member => Option.eq_none_iff_forall_ne_some.mpr fun wait awaits => ?_
    have away := (List.mem_filter.mp member).2
    rw [Task.awaitsEvent_of_wait? awaits] at away
    cases away
  cases event with
  | pushReply reply => exact done.push (.reply reply) rfl called left
  | pushReaction target? emoji user => exact done.push (.reaction target? emoji user) rfl called left
  | delete message =>
    exact done.other ((World.meets_call rfl).sameQueues rfl) (.refl _) fun _ member => .inl member
  | _ => exact done.other (.refl _) (.refl _) fun _ member => .inl member

theorem settleTurn {began : List Wait} {again : Conversation β → Nat → Task ρ} {ended : β → Option ρ}
    {turn : Turn β × PutOff × World} (done : Interleaved origin s) (ready : s.ready = task :: rest)
    (waits : task.wait?.toList = began) (turns : Interleaves s.world.memory began turn)
    (same : ∀ rest due, (again rest due).wait? = rest.wait?) :
    Interleaved origin ({ s with ready := rest }.settleTurn again ended turn) := by
  obtain ⟨state, run, rests, idle⟩ := done
  have begins : s.waits = began ++ (rest ++ s.waiting).filterMap Task.wait? := by
    rw [Session.waits, ready, List.cons_append, List.filterMap_cons, ← waits]
    cases task.wait? <;> rfl
  rw [begins] at rests
  obtain ⟨state', more, rests'⟩ := turns.settles rests
  obtain ⟨turn, putOff, world⟩ := turn
  have nothing : (putOff.tasks : List (Task ρ)).filterMap Task.wait? = [] :=
    putOff.filterMap_tasks fun _ _ _ => rfl
  rw [PutOff.tasks] at nothing
  have left : ∀ t ∈ s.waiting, ∀ {wait}, t.wait? = some wait → wait.Idle world.memory :=
    fun t member {wait} awaits => (idle t member awaits).of_subset turns.fewer
  refine ⟨state', run.trans more, ?_⟩
  cases turn with
  | ended | crashed =>
    refine ⟨rests'.perm ?_, left⟩
    rw [Session.waits]
    simp only [Session.settleTurn, List.filterMap_append, nothing, List.append_nil]
    exact .refl _
  | waits due talk =>
    have last : [again talk due].filterMap Task.wait? = talk.wait?.toList := by
      rw [List.filterMap_cons, same]
      cases talk.wait? <;> rfl
    refine ⟨rests'.perm ?_, fun t member {wait} awaits => ?_⟩
    · rw [Session.waits]
      simp only [Session.settleTurn, List.filterMap_append, nothing, last, List.append_nil]
      rw [← List.append_assoc (List.filterMap _ rest)]
      exact List.perm_append_comm
    · rcases List.mem_append.mp member with before | last
      · exact left t before awaits
      · cases List.mem_singleton.mp last
        rw [same] at awaits
        exact turns.idle awaits

theorem drop (done : Interleaved origin s) (ready : s.ready = task :: rest) (none : task.wait? = none) :
    Interleaved origin { s with ready := rest } := by
  refine done.other (.refl _) (.of_eq ?_) fun _ member => .inl member
  rw [waits, waits, ready, List.cons_append, List.filterMap_cons_none none]

theorem addReady (done : Interleaved origin s) (none : task.wait? = none) :
    Interleaved origin { s with ready := s.ready ++ [task] } := by
  refine done.other (.refl _) (.of_eq ?_) fun _ member => .inl member
  simp only [waits, List.filterMap_append, List.filterMap_cons_none none, List.filterMap_nil, List.append_nil]

theorem addWaiting (done : Interleaved origin s) (none : task.wait? = none) :
    Interleaved origin { s with waiting := s.waiting ++ [task] } := by
  refine done.other (.refl _) (.of_eq ?_) fun t member => ?_
  · simp only [waits, List.filterMap_append, List.filterMap_cons_none none, List.filterMap_nil, List.append_nil]
  · refine (List.mem_append.mp member).imp_right fun last => ?_
    rw [List.mem_singleton.mp last, none]

theorem takeTurn (done : Interleaved origin s) (ready : s.ready = task :: rest) :
    Interleaved origin (Session.takeTurn { s with ready := rest } task) := by
  cases task with
  | main talk due? | aside talk due? =>
    have turns : Interleaves s.world.memory (due?.bind fun _ => talk.wait?).toList (talk.turn due? s.world) :=
      Conversation.advances_turn.interleaves
    refine done.settleTurn ready ?_ turns fun _ _ => rfl
    cases due? <;> rfl
  | later delay event due? =>
    rw [Session.takeTurn]
    split
    · exact (done.drop ready rfl).occur event
    · exact (done.drop ready rfl).addWaiting rfl

theorem passTime? (done : Interleaved origin s) (passes : s.passTime? = some after) :
    Interleaved origin after := by
  obtain ⟨now, _, same⟩ := Option.bind_eq_some_iff.mp passes
  cases same
  exact done.other (.refl _) (s.waits_called _) fun t member => .inl (List.mem_filter.mp member).1

theorem move (done : Interleaved origin s) (move : s.Move after) : Interleaved origin after := by
  cases move with
  | turn ready => exact done.takeTurn ready
  | pass passes => exact done.passTime? passes
  | occur event => exact done.occur event
  | begin apart early => exact done.addReady (Task.wait?_of_due early)
  | forget => exact done.forget
  | setClock => exact done.other (.refl _) (.refl _) fun _ member => .inl member

end Interleaved

theorem Traced.interleaved {attend : Message → Conversation Unit} {origin : Memory} {handlers : List Serving.Handler}
    {s : Session ρ} (traced : s.Traced attend origin handlers) : Interleaved origin s := by
  induction traced with
  | start same =>
    subst same
    exact .start _
  | deliver message _ _ ih => exact ih.addReady rfl
  | turn _ ready _ ih => exact ih.takeTurn ready
  | move _ move ih => exact ih.move move

end Session

namespace Waiting

/-- However the moves of waiters and pushers are interleaved, no event is lost, none is got twice or by the
wrong one, each waiter gets the oldest event that it can get, and none sleeps through one. What is done in a session is
such a run. Those who sleep at its end are the tasks that wait, and nothing is queued for any of them. -/
theorem orderly_of_run {origin : Memory} :
    (∀ {s}, Relation.ReflTransGen Step (.start origin) s → Orderly origin s) ∧
    ∀ {ρ : Type} {attend sent} {session : Session ρ}, session.Reached attend origin sent →
      ∃ s, Relation.ReflTransGen Step (.start origin) s ∧ session.Mirrors s := by
  refine ⟨orderly_of_steps, fun reached => ?_⟩
  obtain ⟨handlers, traced, _⟩ := reached.follows
  exact traced.interleaved

namespace Sample

def first : Message := ⟨"1", "general", "2", false, "one"⟩

def second : Message := ⟨"2", "general", "2", false, "two"⟩

/-- Two waiters take any reply, and a third one takes a single kind of reaction. -/
def anyReply : Wait := .reply "general" fun _ => true

def choice : Wait := .reaction first fun reaction => reaction.emoji == "yes"

/-- The reaction that nobody accepts, as it is queued. -/
def refusal : Event := .reaction ⟨none, "no", "2", false⟩

/-- Everything has been pushed, and nobody has been notified. The first waiter looked before all of it, the
others after that. -/
def stop : State where
  memory := { Memory.new "0" with replies := [second], live := [("1", first)] }
  waiters := [⟨anyReply, .asleep false, []⟩, ⟨anyReply, .ended (some (.reply first)), [.reply first]⟩,
    ⟨choice, .asleep false, [refusal]⟩]
  pushers := [⟨.reply first, .pushed (.reply first)⟩, ⟨.reply second, .pushed (.reply second)⟩,
    ⟨.reaction none "no" "2", .pushed refusal⟩]
  log := [.reply first, .reply second, refusal]

theorem reaches : Relation.ReflTransGen Step (.start (.new "0")) stop := by
  have arrivals : Relation.ReflTransGen Step (.start (.new "0")) ⟨.new "0",
      [.new anyReply, .new anyReply, .new choice],
      [.new (.reply first), .new (.reply second), .new (.reaction none "no" "2")], []⟩ :=
    .head .await (.head .await (.head .await (.head .call (.head .call (.single .call)))))
  refine arrivals.trans ?_
  refine .head (@Step.waiter _ _ [] _ _ _ _ _ .asks) ?_
  refine .head (@Step.waiter _ _ [] _ _ _ _ _ (.sleeps rfl)) ?_
  refine .head (@Step.push _ _ [] _ _ _) ?_
  refine .head (@Step.waiter _ _ [_] _ _ _ _ _ .asks) ?_
  refine .head (@Step.waiter _ _ [_] _ _ _ _ _ (.finds rfl)) ?_
  refine .head (@Step.push _ _ [_] _ _ _) ?_
  refine .head (@Step.push _ _ [_, _] _ _ _) ?_
  refine .head (@Step.waiter _ _ [_, _] _ _ _ _ _ .asks) ?_
  exact .single (@Step.waiter _ _ [_, _] _ _ _ _ _ (.sleeps rfl))

/-- Somebody waits for a reply, which comes after a second. -/
def patience : Session (Except ChatError (Option Message)) :=
  ((Session.happenLater { world := { memory := .new "0" } } 1000 (.pushReply first)).hold
    (.request (.chat (.awaitReply "general" (fun _ => true) 5000)))).2

theorem reached_patience : patience.Reached (fun _ => .done ()) (.new "0") [] := .hold _ (.happenLater _ _ (.start rfl))

end Sample

/-- The first reply has a single taker, and the one who sleeps on while the second is queued is yet to be
notified of it. -/
theorem orderly_of_run_unnotified :
    Relation.ReflTransGen Step (.start (.new "0")) Sample.stop ∧
      (∃ front w back, Sample.stop.waiters = front ++ w :: back ∧ .reply Sample.first ∈ w.taken ∧
        ∀ x ∈ front ++ back, .reply Sample.first ∉ x.taken) ∧
      (∃ p ∈ Sample.stop.pushers, p.progress = .pushed (.reply Sample.second)) ∧
      Sample.patience.Reached (fun _ => .done ()) (.new "0") [] ∧
      ∃ s, Relation.ReflTransGen Step (.start (.new "0")) s ∧ Sample.patience.Mirrors s := by
  obtain ⟨runs, sessions⟩ := orderly_of_run
  have orderly := runs Sample.reaches
  refine ⟨Sample.reaches, ?_, ?_, Sample.reached_patience, sessions Sample.reached_patience⟩
  · rcases orderly.placed (by decide) (.reply Sample.first) (by decide) with ⟨here, _⟩ | ⟨_, taken⟩
    · exact absurd here (by decide)
    · exact taken
  · exact orderly.watched ⟨Sample.anyReply, .asleep false, []⟩ (List.mem_cons_self ..) rfl (.reply Sample.second)
      (by decide) _ (.reply rfl rfl)

end Waiting

end ChatCommands
