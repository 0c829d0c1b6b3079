import ChatCommands.Proofs.Chat.Entries
import ChatCommands.Proofs.RateLimit.Window
import Mathlib.Data.List.GetD

namespace ChatCommands

/-- Holds of the instants in the `span` milliseconds from `start` on, both ends included. -/
def Instant.within (start : Int) (span : Nat) (t : Instant) : Bool :=
  decide (start ≤ t.toInt) && decide (t.toInt ≤ start + span)

/-- The hit that a reply accepts, if it does. -/
def Query.granted? : Query → Reply → Option (String × Instant)
  | .hit key now, .hit true => some (key, now)
  | _, _ => none

/-- The accepted hits of a run of queries, in the order in which they came. -/
def accepted (queries : List Query) (replies : List Reply) : History :=
  (queries.zip replies).flatMap fun e => (e.1.granted? e.2).toList

/-- Times in the order in which hits come when clocks go back by `lateness` milliseconds at most. -/
def Late (lateness : Nat) (times : List Instant) : Prop :=
  times.Pairwise fun s t => s.toInt ≤ t.toInt + (lateness : Int)

variable {lateness : Nat}

/-- Whatever order the times are in, a bisection stops right after one that is older than the bound. -/
theorem bisect_cases {least : Instant} {times : List Instant} {base size : Nat}
    (passed : base = 0 ∨ 0 < size ∧ times.getD base least < least) :
    bisect least times base size = 0 ∨
      ∃ i, bisect least times base size = i + 1 ∧ times.getD i least < least := by
  fun_induction bisect least times base size with
  | case1 base size many half middle start ih =>
    by_cases older : times.getD middle least < least
    · have moved : start = middle := if_pos older
      exact ih (.inr ⟨by omega, moved ▸ older⟩)
    · have kept : start = base := if_neg older
      rw [kept] at ih ⊢
      exact ih (passed.imp_right fun below => ⟨by omega, below.2⟩)
  | case2 base none =>
    rcases passed with first | ⟨some, _⟩
    · exact .inl first
    · exact absurd some (Nat.lt_irrefl 0)
  | case3 base size few some older => exact .inr ⟨base, rfl, older⟩
  | case4 base size few some recent =>
    rcases passed with first | ⟨_, older⟩
    · exact .inl first
    · exact absurd older recent

theorem lt_length_of_getD_lt {least : Instant} {times : List Instant} {i : Nat}
    (older : times.getD i least < least) : i < times.length := by
  by_contra beyond
  rw [List.getD_eq_default _ _ (Nat.not_lt.mp beyond), Int64.lt_iff_toInt_lt] at older
  exact Int.lt_irrefl _ older

/-- A time that comes before an old one, or is that one itself, is newer than it by the lateness at most. -/
theorem Late.of_mem_take {times : List Instant} (late : Late lateness times) {least : Instant} {i : Nat}
    (older : times.getD i least < least) {t : Instant} (member : t ∈ times.take (i + 1)) :
    ∃ p < least, t.toInt ≤ p.toInt + lateness := by
  have within := lt_length_of_getD_lt older
  rw [List.getD_eq_getElem _ _ within] at older
  refine ⟨times[i], older, ?_⟩
  obtain ⟨j, bound, rfl⟩ := List.mem_iff_getElem.mp member
  have before : j < i + 1 := by
    rw [List.length_take] at bound
    omega
  rw [List.getElem_take]
  rcases Nat.lt_succ_iff_lt_or_eq.mp before with earlier | rfl
  · exact List.pairwise_iff_getElem.mp late j i (by omega) within earlier
  · omega

namespace Ring

/-- On times out of order a ring may let go of hits that are not older than the bound, but none that is
newer than some older hit by more than the lateness. -/
theorem of_mem_take_stale {r : Ring} (late : Late lateness r.times) {least t : Instant}
    (member : t ∈ r.times.take (r.stale least)) : ∃ p < least, t.toInt ≤ p.toInt + lateness := by
  have joined := r.runs_append
  unfold stale at member
  generalize r.runs = runs at joined member
  obtain ⟨front, back⟩ := runs
  simp only at joined member
  rw [← joined] at late member
  obtain ⟨lateFront, lateBack, across⟩ := List.pairwise_append.mp late
  have inFront : t ∈ (front ++ back).take (bisect least front 0 front.length) →
      ∃ p < least, t.toInt ≤ p.toInt + lateness := by
    intro member
    rcases bisect_cases (.inl rfl) with none | ⟨i, stop, older⟩
    · rw [none] at member
      cases member
    · rw [stop, List.take_append_of_le_length (lt_length_of_getD_lt older)] at member
      exact Late.of_mem_take lateFront older member
  cases back with
  | nil => exact inFront member
  | cons first rest =>
    simp only at member
    by_cases older : first < least
    · rw [if_pos older, List.take_length_add_append] at member
      rcases List.mem_append.mp member with wrapped | later
      · exact ⟨first, older, across t wrapped first (List.mem_cons_self ..)⟩
      · rcases bisect_cases (.inl rfl) with none | ⟨i, stop, older⟩
        · rw [none] at later
          cases later
        · rw [stop] at later
          exact Late.of_mem_take lateBack older later
    · rw [if_neg older] at member
      exact inFront member

/-- What a ring lets go of when it is pruned are its first hits, and none that is much newer than the bound. -/
theorem exists_gone {r : Ring} (late : Late lateness r.times) (least : Instant) :
    ∃ gone, r.times = gone ++ (r.drop least).times ∧
      ∀ t ∈ gone, ∃ p < least, t.toInt ≤ p.toInt + lateness := by
  refine ⟨r.times.take (r.stale least), ?_, fun t member => of_mem_take_stale late member⟩
  simp only [drop]
  split
  · exact (List.take_append_drop ..).symm
  · rename_i all
    rw [List.append_nil, List.take_of_length_le (Nat.not_lt.mp all)]

end Ring

namespace History

/-- All accepted hits of a key. -/
def hitsOf (h : History) (key : String) : List Instant := (h.filter fun e => e.1 == key).map Prod.snd

theorem during_eq_filter {h : History} {key : String} {start : Int} {span : Nat} :
    h.during key start span = (h.hitsOf key).filter (Instant.within start span) := by
  simp only [during, since, hitsOf, List.filter_map, List.filter_filter]
  congr 1
  apply List.filter_congr
  intro e _
  rw [Bool.eq_iff_iff]
  simp only [Function.comp_apply, Bool.and_eq_true, Instant.within]
  tauto

theorem mem_hitsOf {h : History} {key : String} {t : Instant} : t ∈ h.hitsOf key ↔ (key, t) ∈ h := by
  simp [hitsOf]

theorem hitsOf_concat (h : History) (key other : String) (now : Instant) :
    (h ++ [(key, now)]).hitsOf other = if other = key then h.hitsOf other ++ [now] else h.hitsOf other := by
  by_cases same : other = key
  · simp [hitsOf, same]
  · simp [hitsOf, same, Ne.symm same]

end History

namespace HitLog

/-- The hits of a key, in their ring. A key that is not in the log has none. -/
def ringOf (log : HitLog) (key : String) : Ring := (log.lookup key).getD .empty

theorem ringOf_cons (name : String) (ring : Ring) (log : HitLog) (key : String) :
    ringOf ((name, ring) :: log) key = if key = name then ring else log.ringOf key := by
  rw [ringOf, lookup_entry]
  split <;> rfl

theorem ringOf_of_not_mem {log : HitLog} {key : String} (absent : key ∉ log.map Prod.fst) :
    log.ringOf key = .empty := by
  have missing : log.lookup key = none := by
    rwa [← isSome_lookup_iff, Bool.not_eq_true, Option.isSome_eq_false_iff, Option.isNone_iff_eq_none] at absent
  rw [ringOf, missing]
  rfl

/-- Pruning a log prunes the hits of every key, whether the key stays in the log or not. -/
theorem ringOf_prune {log : HitLog} (distinct : (log.map Prod.fst).Nodup) (least : Instant) (key : String) :
    ((log.prune least).ringOf key).times = ((log.ringOf key).drop least).times := by
  induction log with
  | nil => rfl
  | cons head rest ih =>
    obtain ⟨name, ring⟩ := head
    obtain ⟨fresh, tail⟩ := List.nodup_cons.mp distinct
    have step : prune least ((name, ring) :: rest) = if (ring.drop least).times.isEmpty then prune least rest
        else (name, ring.drop least) :: prune least rest := by
      simp only [prune, List.map_cons, List.filter_cons]
      cases (ring.drop least).times.isEmpty <;> rfl
    rw [step, ringOf_cons]
    by_cases same : key = name
    · subst same
      rw [if_pos rfl]
      split
      · rename_i none
        have gone : key ∉ (prune least rest).map Prod.fst := fun left =>
          fresh ((keys_prune rest least).mem left)
        rw [ringOf_of_not_mem gone, List.isEmpty_iff.mp none]
        rfl
      · rw [ringOf_cons, if_pos rfl]
    · rw [if_neg same, ← ih tail]
      split
      · rfl
      · rw [ringOf_cons, if_neg same]

theorem ringOf_put (log : HitLog) (key other : String) (ring : Ring) :
    (log.put key ring).ringOf other = if other = key then ring else log.ringOf other := by
  induction log with
  | nil => exact ringOf_cons ..
  | cons head rest ih =>
    obtain ⟨name, old⟩ := head
    by_cases same : name = key
    · rw [put, if_pos same, ringOf_cons, ringOf_cons, same]
      split <;> rfl
    · rw [put, if_neg same, ringOf_cons, ringOf_cons, ih]
      by_cases first : other = name
      · rw [if_pos first, if_pos first, if_neg (first ▸ same)]
      · rw [if_neg first, if_neg first]

end HitLog

namespace Window

variable {w : Window} {log : HitLog} {h : History} {top : Int} {now : Instant}

/-- Of the hits of each key, the log has all but some first ones, when no time is late by more than
`lateness`. Those were let go as too old at `top`, the latest time so far, or at some time before. -/
structure Lags (w : Window) (lateness : Nat) (log : HitLog) (h : History) (top : Int) : Prop where
  distinct : (log.map Prod.fst).Nodup
  past : ∀ e ∈ h, e.2.toInt ≤ top
  late : ∀ key, Late lateness (h.hitsOf key)
  kept : ∀ key, ∃ gone, h.hitsOf key = gone ++ (log.ringOf key).times ∧
    ∀ t ∈ gone, t.toInt + w.length < top + lateness

theorem Lags.nil (w : Window) (lateness : Nat) (top : Int) : w.Lags lateness [] [] top :=
  ⟨List.nodup_nil, by simp, fun _ => List.Pairwise.nil, fun _ => ⟨[], rfl, by simp⟩⟩

theorem Lags.prune (lags : w.Lags lateness log h top) (now : Instant) :
    w.Lags lateness (log.prune (now.earlier w.length)) h (max top now.toInt) where
  distinct := lags.distinct.sublist (log.keys_prune _)
  past := fun e member => Int.le_trans (lags.past e member) (Int.le_max_left ..)
  late := lags.late
  kept := by
    intro key
    obtain ⟨gone, whole, old⟩ := lags.kept key
    have late := lags.late key
    rw [whole] at late
    obtain ⟨more, rest, stale⟩ := Ring.exists_gone (List.pairwise_append.mp late).2.1 (now.earlier w.length)
    refine ⟨gone ++ more, ?_, fun t member => ?_⟩
    · rw [HitLog.ringOf_prune lags.distinct, List.append_assoc, ← rest, whole]
    · rcases List.mem_append.mp member with earlier | later
      · have before := old t earlier
        omega
      · obtain ⟨p, older, near⟩ := stale t later
        have before := Instant.lt_earlier_iff.mp older
        omega

/-- A new hit goes to the end of the hits of its key, as it does in the history. -/
theorem Lags.accept (lags : w.Lags lateness log h top) (notAfter : now.toInt ≤ top)
    (near : top ≤ now.toInt + lateness) (key : String) :
    w.Lags lateness (log.put key ((log.ringOf key).push now)) (h ++ [(key, now)]) top where
  distinct := HitLog.nodup_put lags.distinct
  past := by
    intro e member
    rcases List.mem_append.mp member with old | new
    · exact lags.past e old
    · rw [List.mem_singleton.mp new]
      exact notAfter
  late := by
    intro other
    rw [History.hitsOf_concat]
    split
    · refine List.pairwise_append.mpr
        ⟨lags.late other, List.pairwise_singleton .., fun t member last new => ?_⟩
      rw [List.mem_singleton.mp new]
      exact Int.le_trans (lags.past _ (History.mem_hitsOf.mp member)) near
    · exact lags.late other
  kept := by
    intro other
    obtain ⟨gone, whole, old⟩ := lags.kept other
    refine ⟨gone, ?_, old⟩
    rw [History.hitsOf_concat, HitLog.ringOf_put, whole]
    split
    · rename_i same
      rw [Ring.times_push, List.append_assoc, same]
    · rfl

/-- The hits in an interval that a new hit falls into are all still in the log, when the interval is shorter
than the window by twice the lateness: once for hits let go too early, and once for the new hit. -/
theorem Lags.length_during_le (lags : w.Lags lateness log h top) (near : top ≤ now.toInt + lateness)
    {start : Int} {span : Nat} (short : span + 2 * lateness ≤ w.length) (key : String)
    (within : now.toInt ≤ start + span) :
    (h.during key start span).length ≤ (log.ringOf key).times.length := by
  obtain ⟨gone, whole, old⟩ := lags.kept key
  have outside : gone.filter (Instant.within start span) = [] := by
    refine List.filter_eq_nil_iff.mpr fun t member => ?_
    have before := old t member
    have early : ¬start ≤ t.toInt := by omega
    simp [Instant.within, early]
  rw [History.during_eq_filter, whole, List.filter_append, outside, List.nil_append]
  exact List.length_filter_le ..

/-- No key has more hits than its budget within any interval that is shorter than the window by twice the
lateness. -/
def BoundedLate (w : Window) (lateness : Nat) (h : History) : Prop :=
  ∀ key start span, span + 2 * lateness ≤ w.length → (h.during key start span).length ≤ w.budget

theorem Lags.bounded_accept (lags : w.Lags lateness log h top) (near : top ≤ now.toInt + lateness)
    (bounded : w.BoundedLate lateness h) {key : String} (room : (log.ringOf key).times.length < w.budget) :
    w.BoundedLate lateness (h ++ [(key, now)]) := by
  intro other start span short
  rw [History.during_eq_filter, History.hitsOf_concat]
  split
  · rename_i same
    subst same
    rw [List.filter_append, ← History.during_eq_filter, List.length_append]
    by_cases inside : now.toInt ≤ start + span
    · have before := lags.length_during_le near short other inside
      have one := List.length_filter_le (Instant.within start span) [now]
      rw [List.length_singleton] at one
      omega
    · have beyond : [now].filter (Instant.within start span) = [] := by simp [Instant.within, inside]
      rw [beyond, List.length_nil, Nat.add_zero]
      exact bounded other start span short
  · rw [← History.during_eq_filter]
    exact bounded other start span short

theorem remaining_snd (w : Window) (key : String) (now : Instant) (log : HitLog) :
    (w.remaining key now log).2 = log.prune (now.earlier w.length) := by
  simp only [remaining]
  split
  · rfl
  · split
    · rfl
    · split <;> rfl

theorem Lags.answer (lags : w.Lags lateness log h top) (bounded : w.BoundedLate lateness h) {q : Query}
    (near : top ≤ q.now.toInt + lateness) :
    w.Lags lateness (w.answer log q).2 (h ++ (q.granted? (w.answer log q).1).toList) (max top q.now.toInt) ∧
      w.BoundedLate lateness (h ++ (q.granted? (w.answer log q).1).toList) := by
  cases q with
  | remaining key now =>
    simp only [Window.answer, Prod.map, Query.granted?, Option.toList_none, List.append_nil, id_eq,
      remaining_snd]
    exact ⟨lags.prune now, bounded⟩
  | hit key now =>
    have pruned := lags.prune now
    have near' : max top now.toInt ≤ now.toInt + lateness := Int.max_le.mpr ⟨near, by omega⟩
    have ring : ((log.prune (now.earlier w.length)).lookup key).getD .empty =
        (log.prune (now.earlier w.length)).ringOf key := rfl
    simp only [Window.answer, hit, ring]
    by_cases full : w.budget ≤ ((log.prune (now.earlier w.length)).ringOf key).times.length
    · rw [if_pos full]
      simp only [Prod.map, Query.granted?, Option.toList_none, List.append_nil, id_eq]
      exact ⟨pruned, bounded⟩
    · rw [if_neg full]
      exact ⟨pruned.accept (Int.le_max_right ..) near' key,
        pruned.bounded_accept near' bounded (Nat.not_le.mp full)⟩

theorem Lags.answers (lags : w.Lags lateness log h top) (bounded : w.BoundedLate lateness h)
    {queries : List Query} (late : queries.Pairwise fun p q => p.now.toInt ≤ q.now.toInt + (lateness : Int))
    (near : ∀ q ∈ queries, top ≤ q.now.toInt + lateness) :
    w.BoundedLate lateness (h ++ accepted queries (w.answers log queries).1) := by
  induction queries generalizing log h top with
  | nil =>
    rw [accepted, List.zip_nil_left, List.flatMap_nil, List.append_nil]
    exact bounded
  | cons q rest ih =>
    obtain ⟨follows, tail⟩ := List.pairwise_cons.mp late
    obtain ⟨first, others⟩ := List.forall_mem_cons.mp near
    obtain ⟨after, still⟩ := lags.answer bounded first
    have whole : accepted (q :: rest) (w.answers log (q :: rest)).1 =
        (q.granted? (w.answer log q).1).toList ++ accepted rest (w.answers (w.answer log q).2 rest).1 := by
      simp [accepted, Window.answers]
    rw [whole, ← List.append_assoc]
    exact ih after still tail fun p member => Int.max_le.mpr ⟨others p member, follows p member⟩

/-- When clocks go back by `lateness` milliseconds at most, no key gets more hits than its budget into any
interval that is shorter than the window by twice as much. With times in order that is the whole window. -/
theorem answers_bounded_of_lateness {queries : List Query}
    (late : queries.Pairwise fun p q => p.now.toInt ≤ q.now.toInt + (lateness : Int)) (key : String)
    (start : Int) {span : Nat} (short : span + 2 * lateness ≤ w.length) :
    ((accepted queries (w.answers [] queries).1).during key start span).length ≤ w.budget := by
  have none : w.BoundedLate lateness [] := fun _ _ _ _ => Nat.zero_le _
  have lags := Lags.nil w lateness Int64.minValue.toInt
  refine lags.answers none late (fun q _ => ?_) key start span short
  have least := q.now.minValue_le_toInt
  omega

/-- The second hit of a key comes a millisecond late, when its first has been let go already. -/
theorem answers_bounded_of_lateness_one :
    ((accepted [.hit "ann" 0, .hit "bob" 1001, .hit "ann" 1000]
      ((⟨1000, 1⟩ : Window).answers [] [.hit "ann" 0, .hit "bob" 1001, .hit "ann" 1000]).1).during
        "ann" 2 998).length ≤ 1 := by
  have late : ([.hit "ann" 0, .hit "bob" 1001, .hit "ann" 1000] : List Query).Pairwise
      fun p q => p.now.toInt ≤ q.now.toInt + ((1 : Nat) : Int) := by decide
  exact answers_bounded_of_lateness late "ann" 2 (by decide)

/-- An interval that is longer by one millisecond has no such bound: these times are late by ten milliseconds
at most, and three hits lie in eighty-one. -/
example : ((accepted [.hit "ann" 100, .hit "ann" 90, .hit "bob" 191, .hit "ann" 181, .hit "ann" 181]
    ((⟨100, 2⟩ : Window).answers []
      [.hit "ann" 100, .hit "ann" 90, .hit "bob" 191, .hit "ann" 181, .hit "ann" 181]).1).during
        "ann" 100 81).length = 3 := by decide +kernel

/-- One millisecond is enough to bring two hits into a window that has room for one. -/
theorem not_bounded_out_of_order :
    ¬∀ (w : Window) (queries : List Query) (key : String) (start : Int),
      (w.length : Int) ≤ Int64.maxValue.toInt → 0 < w.budget →
        ((accepted queries (w.answers [] queries).1).during key start w.length).length ≤ w.budget := by
  intro always
  have one := always ⟨1000, 1⟩ [.hit "ann" 0, .hit "bob" 1001, .hit "ann" 1000] "ann" 0
    (by decide) (by decide)
  exact absurd one (by decide +kernel)

end Window

end ChatCommands
