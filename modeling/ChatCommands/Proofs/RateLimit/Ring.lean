import ChatCommands.RateLimit.Ring
import Mathlib.Data.List.Basic

namespace ChatCommands

namespace Instant

theorem toInt_clamp {n : Int} (least : -9223372036854775808 ≤ n) (greatest : n ≤ 9223372036854775807) :
    (clamp n).toInt = n := by
  have low : ¬n < Int64.minValue.toInt := Int.not_lt.mpr least
  have high : ¬Int64.maxValue.toInt < n := Int.not_lt.mpr greatest
  rw [clamp, if_neg low, if_neg high]
  exact Int64.toInt_ofInt_of_le least (Int.lt_add_one_of_le greatest)

theorem toInt_bounds (t : Instant) : -9223372036854775808 ≤ t.toInt ∧ t.toInt ≤ 9223372036854775807 :=
  ⟨t.le_toInt, t.toInt_le⟩

/-- Cutting the bound off at the first instant loses nothing: no instant lies before it. -/
theorem lt_earlier_iff {t now : Instant} {span : Nat} :
    t < now.earlier span ↔ t.toInt < now.toInt - span := by
  have first := toInt_bounds t
  have last := toInt_bounds now
  rw [Int64.lt_iff_toInt_lt, earlier]
  by_cases low : now.toInt - span < Int64.minValue.toInt
  · rw [clamp, if_pos low]
    change t.toInt < -9223372036854775808 ↔ _
    change now.toInt - span < -9223372036854775808 at low
    omega
  · have inside : -9223372036854775808 ≤ now.toInt - span := Int.not_lt.mp low
    rw [toInt_clamp inside (by omega)]

theorem toInt_later (t : Instant) (span : Nat) :
    (t.later span).toInt = min (t.toInt + span) Int64.maxValue.toInt := by
  have first := toInt_bounds t
  rw [later]
  by_cases high : Int64.maxValue.toInt < t.toInt + span
  · have low : ¬t.toInt + span < Int64.minValue.toInt := by
      change ¬t.toInt + span < -9223372036854775808
      omega
    rw [clamp, if_neg low, if_pos high]
    omega
  · have inside : t.toInt + span ≤ 9223372036854775807 := Int.not_lt.mp high
    rw [toInt_clamp (by omega) inside]
    omega

theorem since_eq {t start : Instant} (near : t.toInt - start.toInt ≤ Int64.maxValue.toInt) :
    t.since start = (t.toInt - start.toInt).toNat := by
  rw [since]
  by_cases low : t.toInt - start.toInt < Int64.minValue.toInt
  · rw [clamp, if_pos low]
    change t.toInt - start.toInt < -9223372036854775808 at low
    exact (Int.toNat_of_nonpos (by omega)).symm
  · rw [toInt_clamp (Int.not_lt.mp low) near]

end Instant

/-- Times in the order in which hits come when no clock goes back. -/
def Ordered (times : List Instant) : Prop := times.Pairwise fun s t => s.toInt ≤ t.toInt

theorem Ordered.tail {t : Instant} {times : List Instant} (ordered : Ordered (t :: times)) : Ordered times :=
  (List.pairwise_cons.mp ordered).2

theorem Ordered.countP_of_head {t least : Instant} {times : List Instant} (ordered : Ordered (t :: times))
    (recent : ¬t < least) : times.countP (· < least) = 0 := by
  rw [List.countP_eq_zero]
  intro s member
  have after := (List.pairwise_cons.mp ordered).1 s member
  rw [Int64.lt_iff_toInt_lt] at recent
  simp only [decide_eq_true_eq, Int64.lt_iff_toInt_lt]
  omega

/-- In ordered times the ones older than `least` lead, so their number alone tells which they are. A slot
past the end counts as recent. -/
theorem Ordered.getD_lt_iff {times : List Instant} (ordered : Ordered times) (least : Instant) (i : Nat) :
    times.getD i least < least ↔ i < times.countP (· < least) := by
  induction times generalizing i with
  | nil => simp [Int64.lt_iff_toInt_lt]
  | cons t rest ih =>
    have tail := ih ordered.tail
    by_cases older : t < least
    · rw [List.countP_cons_of_pos (by simpa using older)]
      cases i with
      | zero => simp [older]
      | succ i => simpa using tail i
    · have none := ordered.countP_of_head older
      rw [List.countP_cons_of_neg (by simpa using older), none]
      cases i with
      | zero => simp [older]
      | succ i =>
        have beyond := tail i
        rw [none] at beyond
        simpa using beyond

/-- The bisection keeps the number of older hits between its two ends. -/
theorem bisect_eq_countP {least : Instant} {times : List Instant} (ordered : Ordered times) {base size : Nat}
    (lower : base ≤ times.countP (· < least)) (upper : times.countP (· < least) ≤ base + size) :
    bisect least times base size = times.countP (· < least) := by
  fun_induction bisect least times base size with
  | case1 base size many half middle start ih =>
    have older := ordered.getD_lt_iff least middle
    by_cases passed : middle < times.countP (· < least)
    · have moved : start = middle := if_pos (older.mpr passed)
      exact ih (by omega) (by omega)
    · have kept : start = base := if_neg (fun below => passed (older.mp below))
      exact ih (by omega) (by omega)
  | case2 base none => omega
  | case3 base size few some older =>
    have passed := (ordered.getD_lt_iff least base).mp older
    omega
  | case4 base size few some recent =>
    have reached := mt (ordered.getD_lt_iff least base).mpr recent
    omega

theorem Ordered.bisect_eq {times : List Instant} (ordered : Ordered times) (least : Instant) :
    bisect least times 0 times.length = times.countP (· < least) :=
  bisect_eq_countP ordered (Nat.zero_le _) (by simpa using List.countP_le_length)

/-- Letting the older times go is the same as keeping the others. -/
theorem Ordered.drop_countP {times : List Instant} (ordered : Ordered times) (least : Instant) :
    times.drop (times.countP (· < least)) = times.filter fun t => !decide (t < least) := by
  induction times with
  | nil => rfl
  | cons t rest ih =>
    by_cases older : t < least
    · rw [List.countP_cons_of_pos (by simpa using older), List.drop_succ_cons, ih ordered.tail]
      simp [older]
    · have none := ordered.countP_of_head older
      have all : ∀ s ∈ rest, ¬s < least := by simpa [List.countP_eq_zero] using none
      rw [List.countP_cons_of_neg (by simpa using older), none, List.drop_zero]
      simp only [List.filter_cons, older, decide_false, Bool.not_false, if_true]
      rw [List.filter_eq_self.mpr (by simpa using all)]

namespace Ring

theorem runs_append (r : Ring) : r.runs.1 ++ r.runs.2 = r.times := by
  simp [runs]

/-- Wherever the ring wraps around, the two bisections find the same hits. -/
theorem stale_eq_countP {r : Ring} (ordered : Ordered r.times) (least : Instant) :
    r.stale least = r.times.countP (· < least) := by
  have joined := r.runs_append
  unfold stale
  generalize r.runs = runs at joined
  obtain ⟨front, back⟩ := runs
  simp only at joined ⊢
  rw [← joined] at ordered ⊢
  have parts := List.pairwise_append.mp ordered
  cases back with
  | nil => simpa using Ordered.bisect_eq parts.1 least
  | cons first rest =>
    simp only [List.countP_append]
    by_cases older : first < least
    · have whole : front.countP (· < least) = front.length := by
        rw [List.countP_eq_length]
        intro t member
        have before := parts.2.2 t member first (List.mem_cons_self ..)
        rw [Int64.lt_iff_toInt_lt] at older
        simp only [decide_eq_true_eq, Int64.lt_iff_toInt_lt]
        omega
      rw [if_pos older, whole, Ordered.bisect_eq parts.2.1]
    · have none := Ordered.countP_of_head parts.2.1 older
      rw [if_neg older, Ordered.bisect_eq parts.1, List.countP_cons_of_neg (by simpa using older), none,
        Nat.add_zero]

theorem times_drop {r : Ring} (ordered : Ordered r.times) (least : Instant) :
    (r.drop least).times = r.times.filter fun t => !decide (t < least) := by
  rw [← ordered.drop_countP, ← stale_eq_countP ordered]
  simp only [drop]
  split
  · rfl
  · rename_i all
    exact (List.drop_eq_nil_of_le (Nat.not_lt.mp all)).symm

@[simp] theorem times_push (r : Ring) (t : Instant) : (r.push t).times = r.times ++ [t] := by
  have room : (if r.times.length = r.slots then r.grow else r).times = r.times := by
    split
    · simp only [grow]
      split <;> rfl
    · rfl
  simp only [push, room]

end Ring

end ChatCommands
