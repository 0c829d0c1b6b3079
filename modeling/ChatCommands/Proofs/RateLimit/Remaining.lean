import ChatCommands.Proofs.RateLimit.Notice

namespace ChatCommands

theorem Instant.toInt_later_of_le {now : Instant} {d : Nat} (fits : now.toInt + d ≤ Int64.maxValue.toInt) :
    (now.later d).toInt = now.toInt + d := by
  have ends := Instant.toInt_later now d
  omega

namespace Window

variable {w : Window} {log asked : HitLog} {h : History} {key : String} {now back : Instant}

/-- The hits of a key that are left when the log is pruned at the time `now`. -/
def left (w : Window) (key : String) (now : Instant) (log : HitLog) : List Instant :=
  (((log.prune (now.earlier w.length)).lookup key).getD .empty).times

theorem Tracks.left_eq {before : Int} (tracks : w.Tracks log h before) (later : before ≤ now.toInt) :
    w.left key now log = h.since key (now.toInt - w.length) :=
  (tracks.advance later).holds.times_lookup key

/-- The wait that is told depends on the hits that the key has left, and telling it loses none that count. -/
theorem Tracks.remaining_eq (fits : (w.length : Int) ≤ Int64.maxValue.toInt) {before : Int}
    (tracks : w.Tracks log h before) (later : before ≤ now.toInt) (key : String) :
    (w.remaining key now log).1 = w.waitAfter now (h.since key (now.toInt - w.length)) ∧
      w.Tracks (w.remaining key now log).2 h now.toInt := by
  obtain ⟨reply, final⟩ := tracks.remaining fits key later
  exact ⟨Reply.remaining.inj reply, final⟩

/-- Two logs that are in step with one history answer alike, whenever they were pruned last. -/
theorem Tracks.hit_eq {first second : Int} (tracks : w.Tracks log h first) (tracks' : w.Tracks asked h second)
    (later : first ≤ back.toInt) (later' : second ≤ back.toInt) :
    (w.hit key back log).1 = (w.hit key back asked).1 := by
  have reply := (tracks.hit key later).1
  have reply' := (tracks'.hit key later').1
  exact Reply.hit.inj (reply.trans reply'.symm)

/-- A key that has budget left has it at any later time too, since old hits only get fewer. -/
theorem Tracks.hit_of_room (tracks : w.Tracks log h now.toInt) (later : now.toInt ≤ back.toInt)
    (room : (h.since key (now.toInt - w.length)).length < w.budget) : (w.hit key back log).1 = true := by
  have order : now.toInt - w.length ≤ back.toInt - w.length := by omega
  have fewer := List.length_filter_le (fun t => decide (back.toInt - w.length ≤ t.toInt))
    (h.since key (now.toInt - w.length))
  rw [tracks.hit_eq_true later, History.since_eq_filter order]
  exact Nat.lt_of_le_of_lt fewer room

theorem waitAfter_of_room {recent : List Instant} (room : recent.length < w.budget) :
    w.waitAfter now recent = 0 := by
  cases recent with
  | nil => rfl
  | cons oldest rest => exact if_pos room

/-- The wait that is told is exact, up to the end of the clock. A key whose budget is used up is refused
while no more time than the wait has passed, and accepted from the next millisecond on. A key that has
budget left has nothing to wait for. Whether the wait was asked for makes no difference. -/
theorem refused_iff_le_remaining (fits : (w.length : Int) ≤ Int64.maxValue.toInt) (some : 0 < w.budget)
    {queries : List Query} (inOrder : queries.Pairwise fun p q => p.now.toInt ≤ q.now.toInt)
    (later : ∀ q ∈ queries, q.now.toInt ≤ now.toInt) (key : String) :
    let log := (w.answers [] queries).2
    let wait := (w.remaining key now log).1
    let asked := (w.remaining key now log).2
    (w.left key now log).length ≤ w.budget ∧
    ((w.left key now log).length = w.budget →
      ∀ d : Nat, now.toInt + d ≤ Int64.maxValue.toInt → ∀ current ∈ [log, asked],
        (w.hit key (now.later d) current).1 = false ↔ d ≤ wait) ∧
    ((w.left key now log).length < w.budget → wait = 0 ∧
      ∀ d : Nat, now.toInt + d ≤ Int64.maxValue.toInt → ∀ current ∈ [log, asked],
        (w.hit key (now.later d) current).1 = true) := by
  obtain ⟨before, last, tracks, bounded⟩ := tracks_answers fits inOrder later
  obtain ⟨told, final⟩ := tracks.remaining_eq fits last key
  simp only
  have same : ∀ {back : Instant}, now.toInt ≤ back.toInt →
      ∀ current ∈ [(w.answers [] queries).2, (w.remaining key now (w.answers [] queries).2).2],
        (w.hit key back current).1 = (w.hit key back (w.remaining key now (w.answers [] queries).2).2).1 := by
    intro back notBefore
    refine List.forall_mem_cons.mpr ⟨?_, List.forall_mem_singleton.mpr rfl⟩
    exact tracks.hit_eq final (by omega) notBefore
  rw [tracks.left_eq last]
  refine ⟨final.length_since_le bounded key, fun full d fitsLater current member => ?_, fun room => ⟨?_, ?_⟩⟩
  · have passed := Instant.toInt_later_of_le fitsLater
    have reached : now.toInt ≤ (now.later d).toInt := by omega
    have accepted := final.hit_after_wait bounded some (Nat.le_of_eq full.symm) reached
    rw [same (by omega) current member, ← Bool.not_eq_true, accepted, ← told]
    omega
  · rw [told, waitAfter_of_room room]
  · intro d fitsLater current member
    have passed := Instant.toInt_later_of_le fitsLater
    rw [same (by omega) current member]
    exact final.hit_of_room (by omega) room

/-- The longest window there is, and a hit shortly before the clock shows zero: there is one millisecond at
which the key is refused for the last time. -/
theorem refused_iff_le_remaining_longest :
    let w : Window := ⟨9223372036854775807, 1⟩
    let log := (w.answers [] [.hit "ann" (-5), .remaining "ann" (-5)]).2
    (w.remaining "ann" 3 log).1 = 9223372036854775799 ∧
      (w.hit "ann" (Instant.later 3 9223372036854775799) log).1 = false ∧
      (w.hit "ann" (Instant.later 3 9223372036854775800) log).1 = true := by
  intro w log
  have told : (w.remaining "ann" 3 log).1 = 9223372036854775799 := by decide +kernel
  have full : (w.left "ann" 3 log).length = w.budget := by decide +kernel
  have inOrder : List.Pairwise (fun p q : Query => p.now.toInt ≤ q.now.toInt)
      [.hit "ann" (-5), .remaining "ann" (-5)] := by decide
  have waits : ∀ d : Nat, (3 : Int) + d ≤ 9223372036854775807 →
      ((w.hit "ann" (Instant.later 3 d) log).1 = false ↔ d ≤ 9223372036854775799) := by
    intro d fits
    have refused := (refused_iff_le_remaining (w := w) (by decide) (by decide) inOrder (by decide) "ann").2.1
      full d fits log (List.mem_cons_self ..)
    exact refused.trans (iff_of_eq (congrArg (d ≤ ·) told))
  refine ⟨told, (waits _ (by omega)).mpr (by omega), ?_⟩
  rw [← Bool.not_eq_false, waits _ (by omega)]
  omega

end Window

end ChatCommands
