import ChatCommands.RateLimit
import ChatCommands.Proofs.RateLimit.Window

namespace ChatCommands

/-- The seconds that a notice tells for a wait. -/
def RateLimit.seconds (wait : Nat) : Nat := (wait + 999) / 1000

/-- Of times in order, some fall behind a bound exactly when the first of them does. -/
theorem Ordered.length_filter_lt_iff {oldest : Instant} {rest : List Instant} (ordered : Ordered (oldest :: rest))
    (least : Int) :
    ((oldest :: rest).filter fun t => decide (least ≤ t.toInt)).length < (oldest :: rest).length ↔
      oldest.toInt < least := by
  have after := (List.pairwise_cons.mp ordered).1
  constructor
  · intro fewer
    by_contra recent
    have all : ∀ t ∈ oldest :: rest, decide (least ≤ t.toInt) = true := by
      intro t member
      rcases List.mem_cons.mp member with rfl | later
      · exact decide_eq_true (Int.not_lt.mp recent)
      · exact decide_eq_true (Int.le_trans (Int.not_lt.mp recent) (after t later))
    rw [List.filter_eq_self.mpr all] at fewer
    exact Nat.lt_irrefl _ fewer
  · intro stale
    rw [List.filter_cons_of_neg (by simpa using stale)]
    exact Nat.lt_succ_of_le (List.length_filter_le ..)

namespace Window

variable {w : Window} {log after : HitLog} {h : History} {key : String} {now : Instant} {wait : Nat}

/-- All accepted hits are past, so those that still count lie in one window. -/
theorem Tracks.length_since_le (tracks : w.Tracks log h now.toInt) (bounded : w.Bounded h) (key : String) :
    (h.since key (now.toInt - w.length)).length ≤ w.budget := by
  have whole : h.during key (now.toInt - w.length) w.length = h.since key (now.toInt - w.length) := by
    refine List.filter_eq_self.mpr fun t member => ?_
    have past : t.toInt ≤ now.toInt := tracks.past _ (History.mem_since.mp member).1
    exact decide_eq_true (by omega)
  rw [← whole]
  exact bounded key _

theorem Tracks.hit_eq_true (tracks : w.Tracks log h now.toInt) {back : Instant} (later : now.toInt ≤ back.toInt) :
    (w.hit key back log).1 = true ↔ (h.since key (back.toInt - w.length)).length < w.budget := by
  have reply : Reply.hit (w.hit key back log).1 = (w.judge h (.hit key back)).1 := (tracks.hit key later).1
  rw [judge] at reply
  split at reply
  · rename_i room
    exact iff_of_true (Reply.hit.inj reply) room
  · rename_i full
    exact iff_of_false (Bool.eq_false_iff.mp (Reply.hit.inj reply)) full

/-- What is known when a charge is refused: the key has used up its budget, the wait is counted from the
first of its recent hits, and no hit is recorded. -/
theorem Tracks.charge_refused (fits : (w.length : Int) ≤ Int64.maxValue.toInt) {before : Int}
    (tracks : w.Tracks log h before) (later : before ≤ now.toInt)
    (refused : w.charge key now log = (.refused wait, after)) :
    w.budget ≤ (h.since key (now.toInt - w.length)).length ∧
      wait = w.waitAfter now (h.since key (now.toInt - w.length)) ∧ w.Tracks after h now.toInt := by
  obtain ⟨reply, middle⟩ := tracks.hit key later
  simp only [Window.answer, judge] at reply middle
  rw [charge] at refused
  cases tried : w.hit key now log with
  | mk accepted pruned =>
    rw [tried] at refused reply middle
    cases accepted with
    | true => cases refused
    | false =>
      cases refused
      split at reply
      · cases reply
      · rename_i full
        rw [if_neg full] at middle
        obtain ⟨told, final⟩ := Tracks.remaining fits middle key (Int.le_refl now.toInt)
        exact ⟨Nat.not_lt.mp full, Reply.remaining.inj told, final⟩

/-- A key that has used up its budget can hit again as soon as more than its wait has passed, and no
sooner: a hit of exactly one window ago still counts. -/
theorem Tracks.hit_after_wait (tracks : w.Tracks log h now.toInt) (bounded : w.Bounded h) (some : 0 < w.budget)
    (full : w.budget ≤ (h.since key (now.toInt - w.length)).length) {back : Instant}
    (later : now.toInt ≤ back.toInt) :
    (w.hit key back log).1 = true ↔
      now.toInt + w.waitAfter now (h.since key (now.toInt - w.length)) < back.toInt := by
  have ordered := tracks.ordered.since key (now.toInt - w.length)
  have budget := Nat.le_antisymm full (tracks.length_since_le bounded key)
  have order : now.toInt - w.length ≤ back.toInt - w.length := by omega
  rw [tracks.hit_eq_true later, History.since_eq_filter order]
  cases recent : h.since key (now.toInt - w.length) with
  | nil =>
    rw [recent] at full
    exact absurd full (Nat.not_le.mpr some)
  | cons oldest rest =>
    rw [recent] at ordered budget full
    have counts : now.toInt - w.length ≤ oldest.toInt :=
      (History.mem_since.mp (recent ▸ List.mem_cons_self ..)).2
    have last := Instant.toInt_bounds back
    rw [budget, ordered.length_filter_lt_iff, waitAfter, budget, if_neg (Nat.lt_irrefl _)]
    change oldest.toInt < back.toInt - w.length ↔
      now.toInt + (min (oldest.toInt + w.length) 9223372036854775807 - now.toInt).toNat < back.toInt
    omega

/-- The limiter to which any queries in order have led is in step with the hits that it accepted, and
no key has had more of them than its budget. -/
theorem tracks_answers (fits : (w.length : Int) ≤ Int64.maxValue.toInt) {queries : List Query}
    (inOrder : queries.Pairwise fun p q => p.now.toInt ≤ q.now.toInt)
    (later : ∀ q ∈ queries, q.now.toInt ≤ now.toInt) :
    ∃ before ≤ now.toInt, w.Tracks (w.answers [] queries).2 (w.judgements [] queries).2 before ∧
      w.Bounded (w.judgements [] queries).2 := by
  have empty : w.Bounded [] := fun _ _ => by simp [History.during, History.since]
  have tracks := ((Tracks.nil w Int64.minValue.toInt).answers fits inOrder fun q _ => q.now.minValue_le_toInt).2
  refine ⟨_, ?_, tracks, empty.judgements queries⟩
  rw [lastTime]
  cases last : queries.getLast? with
  | none => exact now.minValue_le_toInt
  | some q => exact later q (List.mem_of_getLast? last)

/-- A notice tells the wait of a refused charge in seconds that are rounded up. When nothing is asked in
between, the hit that comes as many seconds later is accepted unless the wait was a whole number of
seconds: then the first recent hit is exactly one window old, and still counts. One millisecond more is
always enough. Zero seconds are told to those whose first recent hit is one window old already. -/
theorem accepts_after_told_seconds (fits : (w.length : Int) ≤ Int64.maxValue.toInt) (some : 0 < w.budget)
    {queries : List Query} (inOrder : queries.Pairwise fun p q => p.now.toInt ≤ q.now.toInt)
    (later : ∀ q ∈ queries, q.now.toInt ≤ now.toInt)
    (refused : w.charge key now (w.answers [] queries).2 = (.refused wait, after)) :
    (∀ limit : RateLimit, limit.renderNotice wait = limit.notice.render (RateLimit.seconds wait)) ∧
    (∀ back : Instant, back.toInt = now.toInt + 1000 * RateLimit.seconds wait →
      ((w.hit key back after).1 = true ↔ ¬1000 ∣ wait)) ∧
    (∀ back : Instant, now.toInt + 1000 * RateLimit.seconds wait < back.toInt → (w.hit key back after).1 = true) ∧
    (RateLimit.seconds wait = 0 ↔ wait = 0) := by
  obtain ⟨before, last, tracks, bounded⟩ := tracks_answers fits inOrder later
  obtain ⟨full, told, final⟩ := tracks.charge_refused fits last refused
  have again : ∀ {back : Instant}, now.toInt ≤ back.toInt →
      ((w.hit key back after).1 = true ↔ now.toInt + wait < back.toInt) := by
    intro back notBefore
    rw [final.hit_after_wait bounded some full notBefore, ← told]
  simp only [RateLimit.seconds]
  refine ⟨fun limit => rfl, fun back due => ?_, fun back beyond => ?_, ?_⟩
  · rw [again (by omega), due]
    omega
  · exact (again (by omega)).mpr (by omega)
  · omega

/-- A wait of half a second, after which the told second is enough. -/
theorem accepts_after_told_seconds_half :
    (⟨1000, 1⟩ : Window).charge "ann" 500 ((⟨1000, 1⟩ : Window).answers [] [.hit "ann" 0]).2 =
      (.refused 500, [("ann", ⟨4, 0, [0]⟩)]) ∧
    ((⟨1000, 1⟩ : Window).hit "ann" 1500 [("ann", ⟨4, 0, [0]⟩)]).1 = true := by
  have refused : (⟨1000, 1⟩ : Window).charge "ann" 500 ((⟨1000, 1⟩ : Window).answers [] [.hit "ann" 0]).2 =
      (.refused 500, [("ann", ⟨4, 0, [0]⟩)]) := by decide +kernel
  have told := accepts_after_told_seconds (by decide) (by decide) (by decide) (by decide) refused
  exact ⟨refused, (told.2.1 1500 (by decide)).mpr (by decide)⟩

/-- The told seconds are not always enough: a hit that is refused with a wait of one second is refused
again one second later. There are even refused hits that are told to wait zero seconds. -/
theorem refuses_after_told_seconds :
    (¬∀ (w : Window) (queries : List Query) (key : String) (now back : Instant) (wait : Nat) (after : HitLog),
      (w.length : Int) ≤ Int64.maxValue.toInt → 0 < w.budget →
      (queries.Pairwise fun p q => p.now.toInt ≤ q.now.toInt) → (∀ q ∈ queries, q.now.toInt ≤ now.toInt) →
      w.charge key now (w.answers [] queries).2 = (.refused wait, after) →
      back.toInt = now.toInt + 1000 * RateLimit.seconds wait → (w.hit key back after).1 = true) ∧
    ((⟨1000, 1⟩ : Window).charge "ann" 1000 ((⟨1000, 1⟩ : Window).answers [] [.hit "ann" 0]).2).1 = .refused 0 := by
  refine ⟨fun always => ?_, by decide +kernel⟩
  have accepted := always ⟨1000, 1⟩ [.hit "ann" 0] "ann" 0 1000 1000 [("ann", ⟨4, 0, [0]⟩)] (by decide)
    (by decide) (by decide) (by decide) (by decide +kernel) (by decide)
  exact absurd accepted (by decide +kernel)

end Window

end ChatCommands
