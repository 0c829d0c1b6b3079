import ChatCommands.RateLimit.Window
import ChatCommands.Proofs.RateLimit.Ring
import Mathlib.Data.List.Dedup

namespace ChatCommands

/-- What a limiter is asked. -/
inductive Query where
  | hit (key : String) (now : Instant)
  | remaining (key : String) (now : Instant)

inductive Reply where
  | hit (accepted : Bool)
  | remaining (wait : Nat)
deriving DecidableEq

def Query.now : Query → Instant
  | hit _ now => now
  | remaining _ now => now

/-- The hits ever accepted, of all keys, in the order in which they came. Nothing is dropped from it. -/
abbrev History := List (String × Instant)

namespace History

/-- The times of a key's accepted hits from `least` on. -/
def since (h : History) (key : String) (least : Int) : List Instant :=
  (h.filter fun e => e.1 == key && decide (least ≤ e.2.toInt)).map Prod.snd

/-- The accepted hits of a key in the `span` milliseconds from `start` on, both ends included. -/
def during (h : History) (key : String) (start : Int) (span : Nat) : List Instant :=
  (h.since key start).filter fun t => decide (t.toInt ≤ start + span)

end History

namespace Window

def answer (w : Window) (log : HitLog) : Query → Reply × HitLog
  | .hit key now => (w.hit key now log).map .hit id
  | .remaining key now => (w.remaining key now log).map .remaining id

/-- The limiter as it runs: every query prunes the log of all keys. -/
def answers (w : Window) : HitLog → List Query → List Reply × HitLog
  | log, [] => ([], log)
  | log, q :: rest =>
    let (reply, after) := w.answer log q
    let (replies, final) := w.answers after rest
    (reply :: replies, final)

/-- How long a key with these recent hits has to wait. No wait ends after the last instant. -/
def waitAfter (w : Window) (now : Instant) (recent : List Instant) : Nat :=
  match recent with
  | [] => 0
  | oldest :: _ =>
    if recent.length < w.budget then 0
    else (min (oldest.toInt + w.length) Int64.maxValue.toInt - now.toInt).toNat

/-- The limiter that forgets nothing, and counts over the integers. -/
def judge (w : Window) (h : History) : Query → Reply × History
  | .hit key now =>
    if (h.since key (now.toInt - w.length)).length < w.budget then (.hit true, h ++ [(key, now)])
    else (.hit false, h)
  | .remaining key now => (.remaining (w.waitAfter now (h.since key (now.toInt - w.length))), h)

def judgements (w : Window) : History → List Query → List Reply × History
  | h, [] => ([], h)
  | h, q :: rest =>
    let (reply, after) := w.judge h q
    let (replies, final) := w.judgements after rest
    (reply :: replies, final)

end Window

namespace History

def Ordered (h : History) : Prop := h.Pairwise fun a b => a.2.toInt ≤ b.2.toInt

theorem Ordered.since {h : History} (ordered : h.Ordered) (key : String) (least : Int) :
    ChatCommands.Ordered (h.since key least) :=
  List.pairwise_map.mpr (List.Pairwise.filter _ ordered)

theorem since_eq_filter {h : History} {key : String} {least later : Int} (order : least ≤ later) :
    h.since key later = (h.since key least).filter fun t => decide (later ≤ t.toInt) := by
  simp only [History.since, List.filter_map, List.filter_filter]
  congr 1
  apply List.filter_congr
  intro e _
  rw [Bool.eq_iff_iff]
  simp only [Function.comp_apply, Bool.and_eq_true, decide_eq_true_eq]
  constructor
  · rintro ⟨same, recent⟩
    exact ⟨recent, same, Int.le_trans order recent⟩
  · rintro ⟨recent, same, _⟩
    exact ⟨same, recent⟩

theorem since_append_other {h : History} {key other : String} (different : other ≠ key) (now : Instant)
    (least : Int) : (h ++ [(key, now)]).since other least = h.since other least := by
  have drops : (key == other) = false := by simpa using different.symm
  simp [History.since, drops]

theorem since_append_same {h : History} {key : String} {now : Instant} {least : Int}
    (recent : least ≤ now.toInt) : (h ++ [(key, now)]).since key least = h.since key least ++ [now] := by
  simp [History.since, recent]

theorem mem_since {h : History} {key : String} {least : Int} {t : Instant} :
    t ∈ h.since key least ↔ (key, t) ∈ h ∧ least ≤ t.toInt := by
  simp only [History.since, List.mem_map, List.mem_filter, Bool.and_eq_true, beq_iff_eq, decide_eq_true_eq]
  constructor
  · rintro ⟨⟨k, s⟩, ⟨member, rfl, recent⟩, rfl⟩
    exact ⟨member, recent⟩
  · rintro ⟨member, recent⟩
    exact ⟨(key, t), ⟨member, rfl, recent⟩, rfl⟩

end History

namespace HitLog

/-- The log has an entry for each key with accepted hits from `least` on, and these hits in it. -/
structure Holds (log : HitLog) (h : History) (least : Int) : Prop where
  distinct : (log.map Prod.fst).Nodup
  kept : ∀ entry ∈ log, entry.2.times = h.since entry.1 least ∧ entry.2.times ≠ []
  complete : ∀ key, h.since key least ≠ [] → key ∈ log.map Prod.fst

theorem Holds.nil (least : Int) : Holds [] [] least :=
  ⟨List.nodup_nil, by simp, fun _ some => absurd rfl some⟩

theorem Holds.mem_keys_iff {log : HitLog} {h : History} {least : Int} (holds : log.Holds h least)
    (key : String) : key ∈ log.map Prod.fst ↔ h.since key least ≠ [] := by
  refine ⟨?_, holds.complete key⟩
  intro member
  obtain ⟨entry, inLog, rfl⟩ := List.mem_map.mp member
  have spec := holds.kept entry inLog
  rw [← spec.1]
  exact spec.2

theorem keys_prune (log : HitLog) (least : Instant) :
    ((log.prune least).map Prod.fst).Sublist (log.map Prod.fst) := by
  have keys : log.map Prod.fst = (log.map fun e => (e.1, e.2.drop least)).map Prod.fst := by
    simp [Function.comp_def]
  rw [keys]
  exact List.Sublist.map _ List.filter_sublist

/-- Every key is pruned, and what is left of each are its hits from the new bound on. -/
theorem Holds.prune {log : HitLog} {h : History} {least : Int} (holds : log.Holds h least)
    (ordered : h.Ordered) {now : Instant} {span : Nat} (later : least ≤ now.toInt - span) :
    (log.prune (now.earlier span)).Holds h (now.toInt - span) := by
  have left : ∀ entry ∈ log, (entry.2.drop (now.earlier span)).times = h.since entry.1 (now.toInt - span) := by
    intro entry member
    have times := (holds.kept entry member).1
    rw [Ring.times_drop (times ▸ ordered.since ..), times, History.since_eq_filter later]
    apply List.filter_congr
    intro t _
    rw [Bool.eq_iff_iff]
    simp only [Instant.lt_earlier_iff, Bool.not_eq_true', decide_eq_false_iff_not, decide_eq_true_eq, Int.not_lt]
  refine ⟨holds.distinct.sublist (log.keys_prune _), ?_, ?_⟩
  · intro entry member
    simp only [HitLog.prune, List.mem_filter, List.mem_map] at member
    obtain ⟨⟨old, inLog, rfl⟩, some⟩ := member
    exact ⟨left old inLog, by simpa using some⟩
  · intro key some
    have before : h.since key least ≠ [] := by
      intro none
      rw [History.since_eq_filter later, none] at some
      exact some rfl
    obtain ⟨entry, member, rfl⟩ := List.mem_map.mp (holds.complete key before)
    refine List.mem_map.mpr ⟨(entry.1, entry.2.drop (now.earlier span)), ?_, rfl⟩
    simp only [HitLog.prune, List.mem_filter, List.mem_map]
    exact ⟨⟨entry, member, rfl⟩, by simpa [left entry member] using some⟩

theorem Holds.lookup_eq {log : HitLog} {h : History} {least : Int} (holds : log.Holds h least) (key : String) :
    match log.lookup key with
    | none => h.since key least = []
    | some ring => ring.times = h.since key least ∧ ring.times ≠ [] := by
  split
  · rename_i absent
    by_contra some
    obtain ⟨entry, member, same⟩ := List.mem_map.mp (holds.complete key some)
    exact absurd same.symm (by simpa using (List.lookup_eq_none_iff.mp absent) entry member)
  · rename_i ring found
    obtain ⟨before, after, split, _⟩ := List.lookup_eq_some_iff.mp found
    exact holds.kept (key, ring) (split ▸ by simp)

theorem Holds.times_lookup {log : HitLog} {h : History} {least : Int} (holds : log.Holds h least)
    (key : String) : ((log.lookup key).getD .empty).times = h.since key least := by
  have entry := holds.lookup_eq key
  cases found : log.lookup key with
  | none =>
    rw [found] at entry
    exact entry.symm
  | some ring =>
    rw [found] at entry
    exact entry.1

theorem Holds.lookup_times {log : HitLog} {h : History} {least : Int} (holds : log.Holds h least)
    (key : String) : (log.lookup key).map Ring.times =
      if h.since key least = [] then none else some (h.since key least) := by
  have entry := holds.lookup_eq key
  cases found : log.lookup key with
  | none =>
    rw [found] at entry
    exact (if_pos entry).symm
  | some ring =>
    rw [found] at entry
    rw [if_neg (entry.1 ▸ entry.2), ← entry.1]
    rfl

/-- The keys in the log are those with recent hits, each once. -/
theorem Holds.length_eq {log : HitLog} {h : History} {least : Int} (holds : log.Holds h least) :
    log.length = ((h.filter fun e => decide (least ≤ e.2.toInt)).map Prod.fst).dedup.length := by
  rw [← List.length_map Prod.fst]
  refine ((List.perm_ext_iff_of_nodup holds.distinct (List.nodup_dedup _)).mpr ?_).length_eq
  intro key
  rw [holds.mem_keys_iff, List.mem_dedup, List.mem_map]
  constructor
  · intro some
    obtain ⟨t, member⟩ := List.exists_mem_of_ne_nil _ some
    obtain ⟨inHistory, recent⟩ := History.mem_since.mp member
    exact ⟨(key, t), List.mem_filter.mpr ⟨inHistory, by simpa using recent⟩, rfl⟩
  · rintro ⟨e, member, rfl⟩
    obtain ⟨inHistory, recent⟩ := List.mem_filter.mp member
    exact List.ne_nil_of_mem (History.mem_since.mpr ⟨inHistory, by simpa using recent⟩)

theorem mem_put_iff {key : String} {ring : Ring} {log : HitLog} (distinct : (log.map Prod.fst).Nodup)
    (entry : String × Ring) :
    entry ∈ log.put key ring ↔ entry = (key, ring) ∨ entry ∈ log ∧ entry.1 ≠ key := by
  induction log with
  | nil => simp [put]
  | cons head rest ih =>
    obtain ⟨fresh, tail⟩ := List.nodup_cons.mp distinct
    by_cases same : head.1 = key
    · have others : ∀ e ∈ rest, e.1 ≠ key := by
        rintro e member rfl
        exact fresh (same ▸ List.mem_map_of_mem member)
      simp only [put, if_pos same, List.mem_cons]
      constructor
      · rintro (rfl | member)
        · exact Or.inl rfl
        · exact Or.inr ⟨Or.inr member, others entry member⟩
      · rintro (rfl | ⟨rfl | member, different⟩)
        · exact Or.inl rfl
        · exact absurd same different
        · exact Or.inr member
    · simp only [put, if_neg same, List.mem_cons, ih tail]
      constructor
      · rintro (rfl | rfl | ⟨member, different⟩)
        · exact Or.inr ⟨Or.inl rfl, same⟩
        · exact Or.inl rfl
        · exact Or.inr ⟨Or.inr member, different⟩
      · rintro (rfl | ⟨rfl | member, different⟩)
        · exact Or.inr (Or.inl rfl)
        · exact Or.inl rfl
        · exact Or.inr (Or.inr ⟨member, different⟩)

theorem nodup_put {key : String} {ring : Ring} {log : HitLog} (distinct : (log.map Prod.fst).Nodup) :
    ((log.put key ring).map Prod.fst).Nodup := by
  induction log with
  | nil => simp [put]
  | cons head rest ih =>
    obtain ⟨fresh, tail⟩ := List.nodup_cons.mp distinct
    by_cases same : head.1 = key
    · simpa [put, same] using distinct
    · simp only [put, if_neg same, List.map_cons, List.nodup_cons]
      refine ⟨?_, ih tail⟩
      intro member
      obtain ⟨entry, inPut, name⟩ := List.mem_map.mp member
      rcases (mem_put_iff tail entry).mp inPut with rfl | ⟨old, _⟩
      · exact same name.symm
      · exact fresh (name ▸ List.mem_map_of_mem old)

/-- Writing the hits of one key into the log follows a history that grew for that key alone. -/
theorem Holds.put {log : HitLog} {h after : History} {least : Int} (holds : log.Holds h least) {key : String}
    {ring : Ring} (times : ring.times = after.since key least) (some : ring.times ≠ [])
    (others : ∀ other, other ≠ key → after.since other least = h.since other least) :
    (log.put key ring).Holds after least := by
  refine ⟨nodup_put holds.distinct, ?_, ?_⟩
  · intro entry member
    rcases (mem_put_iff holds.distinct entry).mp member with rfl | ⟨old, different⟩
    · exact ⟨times, some⟩
    · rw [others entry.1 different]
      exact holds.kept entry old
  · intro other present
    by_cases same : other = key
    · subst same
      exact List.mem_map.mpr ⟨(other, ring), (mem_put_iff holds.distinct _).mpr (Or.inl rfl), rfl⟩
    · rw [others other same] at present
      obtain ⟨entry, member, rfl⟩ := List.mem_map.mp (holds.complete other present)
      exact List.mem_map_of_mem ((mem_put_iff holds.distinct entry).mpr (Or.inr ⟨member, same⟩))

end HitLog

end ChatCommands
