import ChatCommands.Proofs.Waiting.Interleaving

namespace ChatCommands

namespace Memory

variable {m after : Memory}

/-- Nothing has been queued, and nothing has been taken. -/
def SameQueues (m after : Memory) : Prop := after.replies = m.replies ∧ after.queued = m.queued

theorem SameQueues.refl (m : Memory) : m.SameQueues m := ⟨rfl, rfl⟩

theorem SameQueues.of_eq (same : after = m) : m.SameQueues after := same ▸ .refl m

theorem SameQueues.events_eq (same : m.SameQueues after) : after.events = m.events := by
  rw [events, same.1, same.2, events]

end Memory

namespace Waiting

/-- What a sleeper waits for. -/
def Waiter.sleepsOn? (w : Waiter) : Option Wait :=
  match w.stage with
  | .asleep _ => some w.wait
  | _ => none

/-- Those who sleep wait for just this, and whoever has not been notified has nothing to wake up for. -/
structure State.Rests (s : State) (m : Memory) (waits : List Wait) : Prop where
  memory : s.memory = m
  sleepers : (s.waiters.filterMap Waiter.sleepsOn?).Perm waits
  idle : ∀ w ∈ s.waiters, w.stage = .asleep false → w.wait.Idle m

/-- Some steps lead to where those who sleep wait for just this. -/
def State.Settles (s : State) (m : Memory) (waits : List Wait) : Prop :=
  ∃ s', Relation.ReflTransGen Step s s' ∧ s'.Rests m waits

namespace State

variable {s : State} {m after : Memory} {wait : Wait} {waits waits' : List Wait}

theorem Rests.perm (rests : s.Rests m waits) (same : waits.Perm waits') : s.Rests m waits' :=
  ⟨rests.memory, rests.sleepers.trans same, rests.idle⟩

theorem Rests.settles (rests : s.Rests m waits) : s.Settles m waits := ⟨s, .refl, rests⟩

theorem Settles.bind (settles : s.Settles m waits)
    (later : ∀ s' : State, s'.Rests m waits → s'.Settles after waits') : s.Settles after waits' := by
  obtain ⟨s', run, rests⟩ := settles
  obtain ⟨s'', more, rests'⟩ := later s' rests
  exact ⟨s'', run.trans more, rests'⟩

theorem rests_of_replaced {front back : List Waiter} {w : Waiter} {pushers : List Pusher} {log : List Event}
    (others : ((front ++ back).filterMap Waiter.sleepsOn?).Perm waits)
    (idle : ∀ x ∈ front ++ back, x.stage = .asleep false → x.wait.Idle m)
    (own : w.stage = .asleep false → w.wait.Idle m) :
    State.Rests ⟨m, front ++ w :: back, pushers, log⟩ m (w.sleepsOn?.toList ++ waits) := by
  refine ⟨rfl, ?_, fun x member => ?_⟩
  · have split : ((w :: (front ++ back)).filterMap Waiter.sleepsOn?).Perm (w.sleepsOn?.toList ++ waits) := by
      rw [List.filterMap_cons]
      cases w.sleepsOn? with
      | none => exact others
      | some on => exact others.cons on
    exact (List.perm_middle.filterMap _).trans split
  · rcases List.mem_cons.mp (List.perm_middle.mem_iff.mp member) with rfl | other
    · exact own
    · exact idle x other

/-- Somebody comes who finds an event at once. -/
theorem Rests.finds (rests : s.Rests m waits) {found : Found} (took : wait.take m = (some found, after)) :
    s.Settles after waits := by
  obtain ⟨memory, waiters, pushers, log⟩ := s
  obtain ⟨rfl, sleepers, idle⟩ := rests
  refine ⟨_, .head .await (.head (@Step.waiter _ _ waiters [] _ _ _ _ .asks)
    (.single (@Step.waiter _ _ waiters [] _ _ _ _ (.finds took)))), ?_⟩
  refine rests_of_replaced (by rwa [List.append_nil]) (fun x member asleep => ?_) nofun
  rw [List.append_nil] at member
  exact (idle x member asleep).of_subset (Wait.subset_of_take took)

/-- Somebody comes who looks in vain. -/
theorem Rests.sleeps (rests : s.Rests m waits) (took : wait.take m = (none, after)) :
    s.Settles after (wait :: waits) := by
  obtain ⟨memory, waiters, pushers, log⟩ := s
  obtain ⟨rfl, sleepers, idle⟩ := rests
  refine ⟨_, .head .await (.head (@Step.waiter _ _ waiters [] _ _ _ _ .asks)
    (.single (@Step.waiter _ _ waiters [] _ _ _ _ (.sleeps took)))), ?_⟩
  refine rests_of_replaced (by rwa [List.append_nil]) (fun x member asleep => ?_) fun _ => Wait.idle_of_take took
  rw [List.append_nil] at member
  exact (idle x member asleep).of_subset (Wait.subset_of_take took)

/-- One of the sleepers, and the others. -/
theorem Rests.exists_sleeper (rests : s.Rests m (wait :: waits)) :
    ∃ front woken taken back, s.waiters = front ++ ⟨wait, .asleep woken, taken⟩ :: back ∧
      (woken = false → wait.Idle m) ∧ ((front ++ back).filterMap Waiter.sleepsOn?).Perm waits ∧
      ∀ x ∈ front ++ back, x.stage = .asleep false → x.wait.Idle m := by
  obtain ⟨w, member, sleeps⟩ := List.mem_filterMap.mp (rests.sleepers.mem_iff.mpr (List.mem_cons_self ..))
  obtain ⟨front, back, split⟩ := List.append_of_mem member
  have others {x : Waiter} (other : x ∈ front ++ back) : x ∈ s.waiters := by
    rw [split]
    exact List.perm_middle.mem_iff.mpr (List.mem_cons_of_mem _ other)
  obtain ⟨on, stage, taken⟩ := w
  cases stage with
  | asleep woken =>
    cases sleeps
    refine ⟨front, woken, taken, back, split, ?_, ?_, fun x other => rests.idle x (others other)⟩
    · rintro rfl
      exact rests.idle _ member rfl
    · have sleepers := rests.sleepers
      rw [split] at sleepers
      exact ((List.perm_middle.filterMap _).symm.trans sleepers).cons_inv
  | begins | asked | ended => cases sleeps

/-- A sleeper that looks again finds an event. It must have been notified. -/
theorem Rests.finds_again (rests : s.Rests m (wait :: waits)) {found : Found}
    (took : wait.take m = (some found, after)) : s.Settles after waits := by
  obtain ⟨front, woken, taken, back, split, unwoken, sleepers, idle⟩ := rests.exists_sleeper
  obtain ⟨memory, waiters, pushers, log⟩ := s
  obtain rfl := rests.memory
  cases split
  cases woken with
  | false => cases (unwoken rfl).take_eq.symm.trans took
  | true =>
    refine ⟨_, .head (.waiter .wakes) (.head (.waiter .asks) (.single (.waiter (.finds took)))), ?_⟩
    exact rests_of_replaced sleepers
      (fun x member asleep => (idle x member asleep).of_subset (Wait.subset_of_take took)) nofun

/-- A sleeper that looks again in vain sleeps on. When it has not been notified it need not have looked. -/
theorem Rests.sleeps_again (rests : s.Rests m (wait :: waits)) (took : wait.take m = (none, after)) :
    s.Settles after (wait :: waits) := by
  obtain ⟨front, woken, taken, back, split, unwoken, sleepers, idle⟩ := rests.exists_sleeper
  cases woken with
  | false =>
    cases (unwoken rfl).take_eq.symm.trans took
    exact rests.settles
  | true =>
    obtain ⟨memory, waiters, pushers, log⟩ := s
    obtain rfl := rests.memory
    cases split
    refine ⟨_, .head (.waiter .wakes) (.head (.waiter .asks) (.single (.waiter (.sleeps took)))), ?_⟩
    exact rests_of_replaced sleepers
      (fun x member asleep => (idle x member asleep).of_subset (Wait.subset_of_take took))
      fun _ => Wait.idle_of_take took

/-- A sleeper comes to its deadline. -/
theorem Rests.expires (rests : s.Rests m (wait :: waits)) : s.Settles m waits := by
  obtain ⟨front, woken, taken, back, split, _, sleepers, idle⟩ := rests.exists_sleeper
  obtain ⟨memory, waiters, pushers, log⟩ := s
  obtain rfl := rests.memory
  cases split
  exact ⟨_, .single (.waiter .expires), rests_of_replaced sleepers idle nofun⟩

theorem sleepsOn?_notify (w : Waiter) : w.notify.sleepsOn? = w.sleepsOn? := by
  obtain ⟨_, stage, _⟩ := w
  cases stage <;> rfl

/-- Something is pushed, and everybody is notified. -/
theorem Rests.push (rests : s.Rests m waits) (push : Push) : s.Settles (push.onto m) waits := by
  obtain ⟨memory, waiters, pushers, log⟩ := s
  obtain ⟨rfl, sleepers, _⟩ := rests
  refine ⟨_, .head .call (.head (@Step.push _ _ pushers [] push _)
    (.single (@Step.notify _ _ pushers [] push _ _))), rfl, ?_, fun w member asleep => ?_⟩
  · have same : Waiter.sleepsOn? ∘ Waiter.notify = Waiter.sleepsOn? := funext sleepsOn?_notify
    rw [List.filterMap_map, same]
    exact sleepers
  · obtain ⟨_, _, rfl⟩ := List.mem_map.mp member
    exact absurd asleep Waiter.notify_asleep

theorem Rests.other (rests : s.Rests m waits) (same : m.SameQueues after) : s.Settles after waits := by
  obtain ⟨memory, waiters, pushers, log⟩ := s
  obtain ⟨rfl, sleepers, idle⟩ := rests
  refine ⟨_, .single (.other same.1 same.2), rfl, sleepers, fun w member asleep => ?_⟩
  exact (idle w member asleep).of_subset fun _ within => same.events_eq ▸ within

end State

end Waiting

end ChatCommands
