import ChatCommands.Proofs.Chat.Timing
import ChatCommands.Proofs.Format.RoundTrip
import ChatCommands.Proofs.Session.Rest

namespace ChatCommands

namespace Conversation

theorem Asks.of_calls {β : Type} {c : Conversation β} {allowed : Request → Prop} {call : ChatCall}
    (asks : c.Asks allowed) (calls : c.Calls call) : allowed (.chat call) := by
  obtain ⟨_, _, comes⟩ := calls
  cases asks.of_comes comes with
  | ask allows => exact allows

end Conversation

namespace Task

variable {ρ : Type} {talk : Conversation ρ} {limit : Nat} {task left : Task ρ}

def isMain : Task ρ → Bool
  | main _ _ => true
  | _ => false

theorem Comes.isMain_eq {log : List Exchange} (comes : task.Comes log left) : left.isMain = task.isMain := by
  cases comes <;> rfl

/-- A task of a session that holds `talk`: a place in it, or something aside that does not wait any longer. -/
inductive Attends (talk : Conversation ρ) (limit : Nat) : Task ρ → Prop
  | main {log rest due?} : talk.Comes log rest → Attends talk limit (.main rest due?)
  | aside {rest due?} : rest.Asks (Request.EndsWithin limit) → Attends talk limit (.aside rest due?)
  | later {delay event due?} : Attends talk limit (.later delay event due?)

theorem Attends.of_comes {log : List Exchange} (attends : task.Attends talk limit) (comes : task.Comes log left) :
    left.Attends talk limit := by
  cases comes with
  | main comes =>
    cases attends with
    | main before => exact .main (before.trans comes)
  | aside comes =>
    cases attends with
    | aside asks => exact .aside (asks.of_comes comes)
  | later => exact .later

theorem Attends.exists_held {value : ρ} (attends : task.Attends talk limit) (ends : task.Ends (some value)) :
    ∃ log, talk.Held log value := by
  cases ends with
  | main run =>
    cases attends with
    | main before => exact ⟨_, before.held run⟩

theorem Attends.endsWithin {call : ChatCall} (attends : task.Attends talk limit)
    (asks : talk.Asks (Request.EndsWithin limit)) (calls : task.Calls call) :
    Request.EndsWithin limit (.chat call) := by
  cases calls with
  | main calls =>
    cases attends with
    | main before => exact (asks.of_comes before).of_calls calls
  | aside calls =>
    cases attends with
    | aside asks => exact asks.of_calls calls

/-- Something aside, which does not wait any longer. -/
inductive EndsWithin (limit : Nat) : Task ρ → Prop
  | aside {rest due?} : rest.Asks (Request.EndsWithin limit) → EndsWithin limit (.aside rest due?)
  | later {delay event due?} : EndsWithin limit (.later delay event due?)

theorem EndsWithin.attends (ends : task.EndsWithin limit) : task.Attends talk limit := by
  cases ends with
  | aside asks => exact .aside asks
  | later => exact .later

theorem attends_of_putOff {putOff : PutOff} (member : task ∈ putOff.tasks) : task.Attends talk limit := by
  obtain ⟨_, _, rfl⟩ := List.mem_map.mp member
  exact .later

end Task

namespace Session

variable {ρ : Type} {s after : Session ρ} {talk : Conversation ρ} {limit : Nat}

/-- The main conversation can go on, now or when its wait is over. -/
inductive Goes (s : Session ρ) : Prop
  | ready {task} : task ∈ s.ready → task.isMain = true → Goes s
  | waiting {task} : task ∈ s.waiting → task.isMain = true → task.due?.isSome = true → Goes s

/-- The first task has its turn, and the others stay where they are. -/
theorem Goes.of_front {task : Task ρ} {rest : List (Task ρ)} (goes : s.Goes) (front : s.ready = task :: rest)
    (ready : rest ⊆ after.ready) (waiting : s.waiting ⊆ after.waiting) (own : task.isMain = true → after.Goes) :
    after.Goes := by
  cases goes with
  | ready member main =>
    rw [front] at member
    rcases List.mem_cons.mp member with rfl | member
    · exact own main
    · exact .ready (ready member) main
  | waiting member main due => exact .waiting (waiting member) main due

/-- A session that holds `talk`. It has come to an outcome, or it still goes on, unless a wait without end was found. -/
structure Pursues (talk : Conversation ρ) (limit : Nat) (s : Session ρ) : Prop where
  tasks : ∀ t ∈ s.ready ++ s.waiting, t.Attends talk limit
  outcome : ∀ value, s.result? = some value → ∃ log, talk.Held log value
  goes : s.result? = none → s.world.crashed = false → s.Goes
  late : s.world.crashed = true → World.clockEnd ≤ s.world.now + limit

theorem Step.attends (step : s.Step after) (all : ∀ t ∈ s.ready ++ s.waiting, t.Attends talk limit) :
    ∀ t ∈ after.ready ++ after.waiting, t.Attends talk limit := by
  obtain ⟨active, sleepers⟩ := List.forall_mem_append.mp all
  have putOff (later : PutOff) : ∀ t ∈ later.tasks, t.Attends talk limit := fun _ => Task.attends_of_putOff
  cases step with
  | ended later ready | crashed later ready =>
    obtain ⟨_, others⟩ := List.forall_mem_cons.mp (ready ▸ active)
    exact List.forall_mem_append.mpr ⟨List.forall_mem_append.mpr ⟨others, putOff later⟩, sleepers⟩
  | waits later ready comes =>
    obtain ⟨own, others⟩ := List.forall_mem_cons.mp (ready ▸ active)
    exact List.forall_mem_append.mpr ⟨List.forall_mem_append.mpr ⟨others, putOff later⟩,
      List.forall_mem_append.mpr ⟨sleepers, List.forall_mem_singleton.mpr (own.of_comes comes)⟩⟩
  | occurred ready _ moved =>
    obtain ⟨_, others⟩ := List.forall_mem_cons.mp (ready ▸ active)
    exact fun t member => List.forall_mem_append.mpr ⟨others, sleepers⟩ t (moved.mem_iff.mp member)
  | passed =>
    exact fun t member => sleepers t ((List.filter_append_perm _ s.waiting).mem_iff.mp member)

theorem Step.outcome (step : s.Step after) (pursues : s.Pursues talk limit) {value : ρ}
    (result : after.result? = some value) : ∃ log, talk.Held log value := by
  cases step with
  | @ended task _ value? _ _ ready ends =>
    have own : task.Attends talk limit := pursues.tasks task (by rw [ready]; exact List.mem_cons_self ..)
    cases value? with
    | none => exact pursues.outcome value result
    | some _ =>
      cases result
      exact own.exists_held ends
  | _ => exact pursues.outcome value result

theorem Step.goes (step : s.Step after) (pursues : s.Pursues talk limit) (unsettled : after.result? = none)
    (sound : after.world.crashed = false) : after.Goes := by
  cases step with
  | @ended task rest value? world putOff ready ends still =>
    cases value? with
    | some => cases unsettled
    | none =>
      have goes := pursues.goes unsettled (still.crashed.symm.trans sound)
      refine goes.of_front ready (List.subset_append_left ..) (List.Subset.refl _) fun main => ?_
      cases ends
      cases main
  | @waits task rest log left world putOff ready comes _ waits still =>
    have goes := pursues.goes unsettled (still.crashed.symm.trans sound)
    refine goes.of_front ready (List.subset_append_left ..) (List.subset_append_left ..) fun main => ?_
    exact .waiting (List.mem_append_right _ (List.mem_singleton_self left)) (comes.isMain_eq.trans main) waits
  | crashed => cases sound
  | @occurred delay event due? rest ready waiting world front kept moved still =>
    cases pursues.goes unsettled (still.crashed.symm.trans sound) with
    | ready member main =>
      rw [front] at member
      rcases List.mem_cons.mp member with rfl | member
      · cases main
      · exact .ready (kept member) main
    | waiting member main due =>
      rcases List.mem_append.mp (moved.mem_iff.mpr (List.mem_append_right rest member)) with member | member
      · exact .ready member main
      · exact .waiting member main due
  | @passed now idle =>
    have parts := List.filter_append_perm (·.isDue now) s.waiting
    cases pursues.goes unsettled sound with
    | ready member =>
      rw [idle] at member
      cases member
    | waiting member main due =>
      rcases List.mem_append.mp (parts.mem_iff.mpr member) with member | member
      · exact .ready member main
      · exact .waiting member main due

/-- A wait that turns out to have no end began when its end was too late, and time stands still from then on. -/
theorem Step.late (step : s.Step after) (asks : talk.Asks (Request.EndsWithin limit)) (pursues : s.Pursues talk limit)
    (crashed : after.world.crashed = true) : World.clockEnd ≤ after.world.now + limit := by
  have kept {world : World} (still : s.world.Still world) (crashed : world.crashed = true) :
      World.clockEnd ≤ world.now + limit := by
    rw [still.now]
    exact pursues.late (still.crashed.symm.trans crashed)
  cases step with
  | ended _ _ _ still => exact kept still crashed
  | waits _ _ _ _ _ still => exact kept still crashed
  | occurred _ _ _ still => exact kept still crashed
  | passed _ _ sound => cases sound.symm.trans crashed
  | @crashed task _ call timeout world _ ready calls timed endless still =>
    have own : task.Attends talk limit := pursues.tasks task (by rw [ready]; exact List.mem_cons_self ..)
    have short : timeout ≤ limit := own.endsWithin asks calls timeout timed
    have late := World.deadline?_eq_none_iff.mp endless
    rw [← still.now] at late
    exact late.trans (Nat.add_le_add_left short world.now)

theorem Pursues.step (asks : talk.Asks (Request.EndsWithin limit)) (pursues : s.Pursues talk limit)
    (step : s.Step after) : after.Pursues talk limit where
  tasks := step.attends pursues.tasks
  outcome _ := step.outcome pursues
  goes := step.goes pursues
  late := step.late asks pursues

/-- At rest the main conversation has ended, or a wait without end was found. -/
theorem settled_of_rest (rests : s.next? = none) (goes : s.Goes) :
    s.result?.isSome = true ∨ s.world.crashed = true := by
  unfold next? at rests
  split at rests
  · cases rests
  · rename_i idle
    split at rests
    · rename_i settled
      exact Bool.or_eq_true_iff.mp settled
    · cases goes with
      | ready member =>
        rw [idle] at member
        cases member
      | waiting member main due =>
        obtain ⟨due, wait⟩ := Option.isSome_iff_exists.mp due
        have listed := List.mem_filterMap.mpr ⟨_, member, wait⟩
        unfold passTime? at rests
        cases first : (s.waiting.filterMap (·.due?)).min? with
        | none =>
          rw [List.min?_eq_none_iff.mp first] at listed
          cases listed
        | some now =>
          rw [first] at rests
          cases rests

/-- A session that holds a conversation comes to rest with an outcome of it. When it does not, a wait was found to have
no end that a clock can show. -/
theorem exists_outcome (asks : talk.Asks (Request.EndsWithin limit)) (sound : s.world.crashed = false)
    (others : ∀ t ∈ s.ready ++ s.waiting, t.EndsWithin limit) :
    ∃ turns after,
      (∀ more, turns ≤ more → run more { s with ready := s.ready ++ [.main talk none], result? := none } = after) ∧
      ((∃ value log, after.result? = some value ∧ talk.Held log value) ∨
        after.world.crashed = true ∧ World.clockEnd ≤ after.world.now + limit) := by
  obtain ⟨turns, rests⟩ := exists_rest { s with ready := s.ready ++ [.main talk none], result? := none }
  refine ⟨turns, _, fun more enough => run_of_le rests enough, ?_⟩
  obtain ⟨active, sleepers⟩ := List.forall_mem_append.mp others
  have began : Pursues talk limit { s with ready := s.ready ++ [.main talk none], result? := none } := by
    refine ⟨?_, nofun, fun _ _ => ?_, fun crashed => ?_⟩
    · have own : Task.Attends talk limit (.main talk none) := .main .start
      refine List.forall_mem_append.mpr ⟨List.forall_mem_append.mpr ⟨fun t member => (active t member).attends,
        List.forall_mem_singleton.mpr own⟩, fun t member => (sleepers t member).attends⟩
    · exact .ready (List.mem_append_right _ (List.mem_singleton_self _)) rfl
    · cases sound.symm.trans crashed
  have pursues := run_induction turns began (·.step asks)
  generalize run turns { s with ready := s.ready ++ [.main talk none], result? := none } = after at rests pursues ⊢
  cases result : after.result? with
  | some value =>
    obtain ⟨log, held⟩ := pursues.outcome value result
    exact .inl ⟨value, log, rfl, held⟩
  | none =>
    have crashed : after.world.crashed = true := by
      by_contra intact
      rcases settled_of_rest rests (pursues.goes result (Bool.not_eq_true _ ▸ intact)) with settled | crashed
      · rw [result] at settled
        cases settled
      · exact intact crashed
    exact .inr ⟨crashed, pursues.late crashed⟩

end Session

/-- The longest that the settings let anybody wait. -/
def Config.longestWait (c : Config) : Nat := max c.promptTimeout c.menuTimeout * 1000

namespace Invocation

variable {α ρ : Type} {inv : Invocation α} {talk : Conversation ρ} {limit : Nat}

/-- What waits for as long as the settings say: for a reply, for the answer to a question, or in a menu, whose handler
does not wait any longer than `limit`. -/
inductive Configured (inv : Invocation α) (limit : Nat) : {ρ : Type} → Conversation ρ → Prop
  | awaitReply {accepts} : Configured inv limit (inv.awaitReply none accepts).run
  | ask {question accepts} : Configured inv limit (inv.ask question none accepts).run
  | askReaction {question emojis anyone} : Configured inv limit (inv.askReaction question emojis anyone none).run
  | menu {σ : Type} {menu : Menu σ} {initial} : menu.options.timeout = inv.menuOptions.timeout →
      menu.handler.Asks (Request.EndsWithin limit) → Configured inv limit (menu.hold initial)

theorem Configured.asks (configured : inv.Configured limit talk) (longest : inv.config.longestWait ≤ limit) :
    talk.Asks (Request.EndsWithin limit) := by
  have prompts : inv.config.promptTimeout * 1000 ≤ limit :=
    (Nat.mul_le_mul_right 1000 (Nat.le_max_left ..)).trans longest
  have menus : inv.config.menuTimeout * 1000 ≤ limit :=
    (Nat.mul_le_mul_right 1000 (Nat.le_max_right ..)).trans longest
  have within {timeout : Nat} (short : timeout ≤ limit) (call : ChatCall) (waits : call.WaitsFor timeout) :
      Request.EndsWithin limit (.chat call) :=
    fun t member => (waits t member).trans_le short
  cases configured with
  | awaitReply => exact asks_awaitReply_of_waits (within prompts)
  | ask => exact asks_ask_of_waits (within prompts)
  | askReaction => exact asks_askReaction_of_waits (within menus)
  | menu usual handles => exact Menu.asks_hold_of_waits (within (usual.trans_le menus)) handles

/-- What waits with the timeouts of the settings comes to an outcome, whatever else goes on in the session, unless some
wait begins so late that no clock can show its end. -/
theorem configured_wait_ends {s : Session ρ} (configured : inv.Configured limit talk)
    (longest : inv.config.longestWait ≤ limit) (sound : s.world.crashed = false)
    (others : ∀ t ∈ s.ready ++ s.waiting, t.EndsWithin limit) :
    ∃ turns after,
      (∀ more, turns ≤ more →
        Session.run more { s with ready := s.ready ++ [.main talk none], result? := none } = after) ∧
      ((∃ value log, after.result? = some value ∧ talk.Held log value) ∨
        after.world.crashed = true ∧ World.clockEnd ≤ after.world.now + limit) :=
  Session.exists_outcome (configured.asks longest) sound others

namespace Sample

def prompting : Invocation Unit := ⟨.new, { owner := "1" }, ⟨"5", "hall", "ann", false, "!ask"⟩, 0⟩

def reply : Message := ⟨"6", "hall", "ann", false, "yes"⟩

/-- Something else goes on, and the invoker replies after three seconds. -/
def evening : Session (Except ChatError (Option Message)) where
  world := { memory := .new "0" }
  ready := [.aside (.request (.pause 5000)) none]
  waiting := [.later 3000 (.pushReply reply) (some 3000)]

end Sample

/-- The bot waits for a reply for a minute at the most, and has it after three seconds. -/
theorem configured_wait_ends_evening :
    Sample.prompting.config.longestWait ≤ 60000 ∧
    (∀ t ∈ Sample.evening.ready ++ Sample.evening.waiting, t.EndsWithin 60000) ∧
    ∃ turns after,
      (∀ more, turns ≤ more →
        Session.run more { Sample.evening with
          ready := Sample.evening.ready ++ [.main (Sample.prompting.awaitReply none fun _ => true).run none]
          result? := none } = after) ∧
      after.result? = some (.ok (some Sample.reply)) ∧ after.world.now = 3000 := by
  have others : ∀ t ∈ Sample.evening.ready ++ Sample.evening.waiting, t.EndsWithin 60000 := by
    refine List.forall_mem_cons.mpr ⟨.aside (.request trivial), List.forall_mem_singleton.mpr .later⟩
  have short : Sample.prompting.config.longestWait ≤ 60000 := by decide
  refine ⟨short, others, ?_⟩
  have configured : Sample.prompting.Configured 60000 (Sample.prompting.awaitReply none fun _ => true).run :=
    .awaitReply
  obtain ⟨turns, after, run, _⟩ := configured_wait_ends configured short rfl others
  have rests : (Session.run 5 { Sample.evening with
      ready := Sample.evening.ready ++ [.main (Sample.prompting.awaitReply none fun _ => true).run none]
      result? := none }).next? = none := rfl
  have same := run (max turns 5) (Nat.le_max_left ..)
  rw [Session.run_of_le rests (Nat.le_max_right ..)] at same
  subst same
  exact ⟨turns, _, run, rfl, by decide +kernel⟩

namespace Sample

def patientText : String := "\x7b\"owner\":\"100\",\"prompt_timeout_secs\":18446744073709551615\x7d"

def patient : Invocation Unit :=
  ⟨.new, { owner := "100", promptTimeout := 18446744073709551615 }, ⟨"5", "hall", "ann", false, "!ask"⟩, 0⟩

theorem ofText_patientText : Config.ofText patientText = .ok patient.config := by decide +kernel

/-- A platform where the reply is there already. -/
def answered : Memory := { Memory.new "0" with replies := [⟨"6", "hall", "ann", false, "yes"⟩] }

end Sample

/-- The settings are accepted, and with them a wait for a reply that is there already comes to no outcome at all. -/
theorem accepted_timeout_overruns :
    Config.ofText Sample.patientText = .ok Sample.patient.config ∧
    ({ world := { memory := Sample.answered } } : Session (Except ChatError (Option Message))).hold
      (Sample.patient.awaitReply none fun _ => true).run =
        (none, { world := { memory := Sample.answered, crashed := true } }) :=
  ⟨Sample.ofText_patientText, Session.hold_of_crashed (Conversation.advance_of_late ⟨rfl, rfl⟩ rfl (by decide +kernel))⟩

end Invocation

end ChatCommands
