import ChatCommands.Proofs.Session.Steps
import Mathlib.Data.Multiset.DershowitzManna
import Mathlib.SetTheory.Ordinal.Family

namespace ChatCommands

/-- How far a conversation can still go. An answer can be any text, and how far a conversation goes may depend on it, so
that no number need be large enough. -/
noncomputable def Conversation.rank {β : Type} : Conversation β → Ordinal.{0}
  | .done _ => 0
  | .ask _ next => ⨆ answer, (next answer).rank + 1

theorem Conversation.Comes.rank_le {β : Type} {c rest : Conversation β} {log : List Exchange}
    (comes : c.Comes log rest) : rest.rank ≤ c.rank := by
  induction comes with
  | start => exact le_rfl
  | ask _ ih => exact ih.trans (Ordinal.lt_iSup_add_one _ _).le

theorem Conversation.Comes.rank_lt {β : Type} {c rest : Conversation β} {e : Exchange} {log : List Exchange}
    (comes : c.Comes (e :: log) rest) : rest.rank < c.rank := by
  cases comes with
  | ask comes => exact comes.rank_le.trans_lt (Ordinal.lt_iSup_add_one _ _)

namespace Task

variable {ρ : Type} {task left : Task ρ} {now : Nat}

noncomputable def rank? : Task ρ → Option Ordinal.{0}
  | main talk _ => some talk.rank
  | aside talk _ => some talk.rank
  | later _ _ _ => none

theorem Comes.rank?_eq (comes : task.Comes [] left) : left.rank? = task.rank? := by
  cases comes with
  | main comes | aside comes =>
    cases comes
    rfl
  | later => rfl

theorem Comes.exists_rank_lt {e : Exchange} {log : List Exchange} (comes : task.Comes (e :: log) left) :
    ∃ before after, task.rank? = some before ∧ left.rank? = some after ∧ after < before := by
  cases comes with
  | main comes | aside comes => exact ⟨_, _, rfl, rfl, comes.rank_lt⟩

theorem Ends.exists_rank {value? : Option ρ} (ends : task.Ends value?) : ∃ rank, task.rank? = some rank := by
  cases ends <;> exact ⟨_, rfl⟩

theorem Calls.exists_rank {call : ChatCall} (calls : task.Calls call) : ∃ rank, task.rank? = some rank := by
  cases calls <;> exact ⟨_, rfl⟩

/-- How many more steps a task that can go on may take without getting any further: none when its wait is over. -/
def readyPatience (now : Nat) (t : Task ρ) : Nat := if t.due?.any (· ≤ now) then 0 else 2

/-- The same for a task that waits. It can go on again at the end of the wait. -/
def waitingPatience (t : Task ρ) : Nat := if t.due?.isSome then 1 else 3

theorem readyPatience_of_early (early : ∀ d ∈ task.due?, now < d) : task.readyPatience now = 2 := by
  cases wait : task.due? with
  | none =>
    rw [readyPatience, wait, Option.any_none]
    rfl
  | some d =>
    rw [readyPatience, wait, Option.any_some, decide_eq_false (Nat.not_le_of_lt (early d wait))]
    rfl

theorem readyPatience_lt {later : Nat} (due : task.isDue now = true) (past : now ≤ later) :
    task.readyPatience later < task.waitingPatience := by
  unfold isDue at due
  unfold readyPatience waitingPatience
  cases wait : task.due? with
  | none => exact Nat.lt_succ_self 2
  | some d =>
    rw [wait, Option.all_some, decide_eq_true_eq] at due
    rw [Option.any_some, if_pos (decide_eq_true (due.trans past))]
    exact Nat.one_pos

end Task

namespace Session

variable {ρ : Type} {s after : Session ρ}

noncomputable def ranksOf (tasks : List (Task ρ)) : Multiset Ordinal.{0} := ↑(tasks.filterMap Task.rank?)

theorem ranksOf_append (tasks more : List (Task ρ)) : ranksOf (tasks ++ more) = ranksOf tasks + ranksOf more := by
  rw [ranksOf, List.filterMap_append, ← Multiset.coe_add, ranksOf, ranksOf]

theorem ranksOf_cons (task : Task ρ) (tasks : List (Task ρ)) :
    ranksOf (task :: tasks) = ranksOf [task] + ranksOf tasks :=
  ranksOf_append [task] tasks

theorem ranksOf_singleton {task : Task ρ} {rank : Ordinal.{0}} (holds : task.rank? = some rank) :
    ranksOf [task] = {rank} := by
  rw [ranksOf, List.filterMap_cons_some holds]
  rfl

theorem ranksOf_perm {tasks tasks' : List (Task ρ)} (same : tasks.Perm tasks') : ranksOf tasks = ranksOf tasks' :=
  Multiset.coe_eq_coe.mpr (same.filterMap Task.rank?)

theorem ranksOf_putOff (putOff : PutOff) : ranksOf (putOff.tasks : List (Task ρ)) = 0 := by
  induction putOff with
  | nil => rfl
  | cons _ _ ih => exact ih

/-- How far the conversations of a session can still go. -/
noncomputable def ranks (s : Session ρ) : Multiset Ordinal.{0} := ranksOf s.ready + ranksOf s.waiting

def size (s : Session ρ) : Nat := s.ready.length + s.waiting.length

/-- How many more steps the tasks of a session may take without getting any further. -/
def patience (s : Session ρ) : Nat :=
  (s.ready.map (Task.readyPatience s.world.now)).sum + (s.waiting.map Task.waitingPatience).sum

/-- The first session is nearer to rest: its conversations can go less far, or there are fewer tasks, or less waiting is
left to be done. -/
def Nearer (after s : Session ρ) : Prop :=
  Prod.Lex Multiset.IsDershowitzMannaLT (Prod.Lex (· < ·) (· < ·)) (after.ranks, after.size, after.patience)
    (s.ranks, s.size, s.patience)

theorem wellFounded_nearer : WellFounded (Nearer (ρ := ρ)) :=
  InvImage.wf (fun s : Session ρ => (s.ranks, s.size, s.patience))
    (Multiset.wellFounded_isDershowitzMannaLT.prod_lex (Nat.lt_wfRel.wf.prod_lex Nat.lt_wfRel.wf))

/-- A conversation gives way to others that can go less far. -/
theorem nearer_of_ranks {rank : Ordinal.{0}} {kept : Multiset Ordinal.{0}} (less : Multiset Ordinal.{0})
    (before : s.ranks = kept + {rank}) (now : after.ranks = kept + less) (lower : ∀ r ∈ less, r < rank) :
    Nearer after s := by
  refine .left _ _ ⟨kept, less, {rank}, Multiset.singleton_ne_zero rank, now, before, fun r member => ?_⟩
  exact ⟨rank, Multiset.mem_singleton_self rank, lower r member⟩

theorem nearer_of_size (ranks : after.ranks = s.ranks) (fewer : after.size < s.size) : Nearer after s := by
  rw [Nearer, ranks]
  exact .right _ (.left _ _ fewer)

theorem nearer_of_patience (ranks : after.ranks = s.ranks) (size : after.size = s.size)
    (less : after.patience < s.patience) : Nearer after s := by
  rw [Nearer, ranks, size]
  exact .right _ (.right _ less)

theorem ranks_of_ready {task : Task ρ} {rest : List (Task ρ)} (ready : s.ready = task :: rest) :
    s.ranks = ranksOf rest + ranksOf s.waiting + ranksOf [task] := by
  rw [ranks, ready, ranksOf_cons]
  ac_rfl

/-- Of the tasks that wait, those that are due lose patience when time has passed. -/
theorem patience_of_due {now later : Nat} (past : now ≤ later) (tasks : List (Task ρ)) :
    ((tasks.filter (·.isDue now)).map (Task.readyPatience later)).sum + (tasks.filter (·.isDue now)).length +
      ((tasks.filter (!·.isDue now)).map Task.waitingPatience).sum ≤ (tasks.map Task.waitingPatience).sum := by
  induction tasks with
  | nil => exact le_rfl
  | cons task tasks ih =>
    cases due : task.isDue now with
    | false =>
      simp only [List.filter_cons, due, Bool.not_false, Bool.false_eq_true, if_true, if_false, List.map_cons,
        List.sum_cons]
      omega
    | true =>
      have less := Task.readyPatience_lt due past
      simp only [List.filter_cons, due, Bool.not_true, Bool.false_eq_true, if_true, if_false, List.map_cons,
        List.sum_cons, List.length_cons]
      omega

/-- A task that got no further waits, until a time still to come. -/
theorem nearer_of_stay {task left : Task ρ} {rest : List (Task ρ)} {world : World} (ready : s.ready = task :: rest)
    (comes : task.Comes [] left) (early : ∀ d ∈ task.due?, s.world.now < d) (waits : left.due?.isSome = true)
    (still : s.world.Still world) : Nearer ⟨world, rest ++ PutOff.tasks [], s.waiting ++ [left], s.result?⟩ s := by
  have nothing : (PutOff.tasks [] : List (Task ρ)) = [] := rfl
  rw [nothing, List.append_nil]
  refine nearer_of_patience ?_ ?_ ?_
  · have same : ranksOf [left] = ranksOf [task] := by
      rw [ranksOf, ranksOf, List.filterMap_cons, List.filterMap_cons, comes.rank?_eq]
    rw [ranks_of_ready ready, ranks, ranksOf_append, same, add_assoc]
  · simp only [size, ready, List.length_cons, List.length_append, List.length_nil]
    omega
  · have own := Task.readyPatience_of_early early
    have again : left.waitingPatience = 1 := if_pos waits
    simp only [patience, ready, still.now, List.map_cons, List.sum_cons, List.map_append, List.sum_append, List.map_nil,
      List.sum_nil]
    omega

/-- Time passes until a task that waits is due. -/
theorem nearer_of_passing {now : Nat} (idle : s.ready = []) (first : (s.waiting.filterMap (·.due?)).min? = some now) :
    Nearer ⟨{ s.world with now := max now s.world.now }, s.waiting.filter (·.isDue now),
      s.waiting.filter (!·.isDue now), s.result?⟩ s := by
  have parts := List.filter_append_perm (·.isDue now) s.waiting
  refine nearer_of_patience ?_ ?_ ?_
  · rw [ranks, ranks, idle, ← ranksOf_append, ranksOf_perm parts]
    exact (zero_add _).symm
  · have lengths := parts.length_eq
    simp only [List.length_append] at lengths
    simp only [size, idle, List.length_nil]
    omega
  · obtain ⟨task, waits, wait⟩ := List.mem_filterMap.mp (List.min?_mem first)
    have due : task ∈ s.waiting.filter (·.isDue now) := by
      rw [List.mem_filter, Task.isDue, wait, Option.all_some, decide_eq_true_eq]
      exact ⟨waits, le_rfl⟩
    have some := List.length_pos_of_mem due
    have less := patience_of_due (Nat.le_max_left now s.world.now) s.waiting
    simp only [patience, idle, List.map_nil, List.sum_nil]
    omega

/-- Whatever happens in a session, it gets nearer to rest. -/
theorem nearer_of_step (step : s.Step after) : Nearer after s := by
  -- What was put off has no rank, so that a turn may bring any number of new tasks once a conversation gets further. A
  -- turn that gets nowhere brings none.
  cases step with
  | @ended _ rest _ _ putOff ready spent | @crashed _ rest _ _ _ putOff ready spent =>
    obtain ⟨rank, holds⟩ := spent.exists_rank
    have before := ranks_of_ready ready
    rw [ranksOf_singleton holds] at before
    refine nearer_of_ranks 0 before ?_ nofun
    rw [ranks, ranksOf_append, ranksOf_putOff, add_zero, add_zero]
  | @waits task rest log left world putOff ready comes stays waits still =>
    cases log with
    | cons e log =>
      obtain ⟨rank, rank', holds, holds', lower⟩ := comes.exists_rank_lt
      have before := ranks_of_ready ready
      rw [ranksOf_singleton holds] at before
      refine nearer_of_ranks {rank'} before ?_ fun r member => ?_
      · rw [ranks, ranksOf_append, ranksOf_append, ranksOf_putOff, ranksOf_singleton holds', add_zero, add_assoc]
      · rwa [Multiset.mem_singleton.mp member]
    | nil =>
      obtain ⟨rfl, early⟩ := stays rfl
      exact nearer_of_stay ready comes early waits still
  | @occurred delay event due? rest ready waiting world front _ moved still =>
    refine nearer_of_size ?_ ?_
    · rw [ranks_of_ready front, ranks, ← ranksOf_append, ranksOf_perm moved, ranksOf_append]
      exact (add_zero _).symm
    · have lengths := moved.length_eq
      simp only [List.length_append] at lengths
      simp only [size, front, List.length_cons]
      omega
  | passed idle _ _ first => exact nearer_of_passing idle first

/-- Every session comes to rest. -/
theorem exists_rest (s : Session ρ) : ∃ turns, (run turns s).next? = none := by
  induction s using wellFounded_nearer.induction with
  | _ s ih =>
    cases next : s.next? with
    | none => exact ⟨0, next⟩
    | some after =>
      obtain ⟨turns, rests⟩ := ih after (nearer_of_step (step_of_next? next))
      refine ⟨turns + 1, ?_⟩
      rwa [run_succ, next]

end Session

end ChatCommands
