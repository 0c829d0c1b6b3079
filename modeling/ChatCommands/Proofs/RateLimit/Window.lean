import ChatCommands.Proofs.RateLimit.History

namespace ChatCommands.Window

/-- The log is in step with the history at the time `now` of the last query. -/
structure Tracks (w : Window) (log : HitLog) (h : History) (now : Int) : Prop where
  ordered : h.Ordered
  past : ∀ e ∈ h, e.2.toInt ≤ now
  holds : log.Holds h (now - w.length)

theorem Tracks.nil (w : Window) (now : Int) : w.Tracks [] [] now :=
  ⟨List.Pairwise.nil, by simp, .nil _⟩

/-- Pruning on a query brings the log up to the time of the query. -/
theorem Tracks.advance {w : Window} {log : HitLog} {h : History} {before : Int} (tracks : w.Tracks log h before)
    {now : Instant} (later : before ≤ now.toInt) :
    w.Tracks (log.prune (now.earlier w.length)) h now.toInt where
  ordered := tracks.ordered
  past := fun e member => Int.le_trans (tracks.past e member) later
  holds := tracks.holds.prune tracks.ordered (by omega)

theorem Tracks.accept {w : Window} {log : HitLog} {h : History} {now : Instant}
    (tracks : w.Tracks log h now.toInt) {key : String} {ring : Ring}
    (times : ring.times = h.since key (now.toInt - w.length) ++ [now]) :
    w.Tracks (log.put key ring) (h ++ [(key, now)]) now.toInt where
  ordered := List.pairwise_append.mpr ⟨tracks.ordered, List.pairwise_singleton ..,
    fun e member f last => by rw [List.mem_singleton.mp last]; exact tracks.past e member⟩
  past := by
    intro e member
    rcases List.mem_append.mp member with old | new
    · exact tracks.past e old
    · cases List.mem_singleton.mp new
      exact Int.le_refl _
  holds := by
    refine tracks.holds.put ?_ (by simp [times]) ?_
    · rw [times, History.since_append_same (by omega)]
    · intro other different
      exact History.since_append_other different ..

theorem Tracks.hit {w : Window} {log : HitLog} {h : History} {before : Int} (tracks : w.Tracks log h before)
    (key : String) {now : Instant} (later : before ≤ now.toInt) :
    (w.answer log (.hit key now)).1 = (w.judge h (.hit key now)).1 ∧
      w.Tracks (w.answer log (.hit key now)).2 (w.judge h (.hit key now)).2 now.toInt := by
  have pruned := tracks.advance later
  have found := pruned.holds.times_lookup key
  simp only [answer, Window.hit, judge, found]
  by_cases room : (h.since key (now.toInt - w.length)).length < w.budget
  · rw [if_neg (Nat.not_le.mpr room), if_pos room]
    exact ⟨rfl, pruned.accept (by rw [Ring.times_push, found])⟩
  · rw [if_pos (Nat.not_lt.mp room), if_neg room]
    exact ⟨rfl, pruned⟩

/-- The wait that the saturating clock arithmetic yields is the one counted over the integers. -/
theorem since_later_eq {w : Window} (fits : (w.length : Int) ≤ Int64.maxValue.toInt) {oldest now : Instant}
    (past : oldest.toInt ≤ now.toInt) :
    (oldest.later w.length).since now =
      (min (oldest.toInt + w.length) Int64.maxValue.toInt - now.toInt).toNat := by
  have ends := Instant.toInt_later oldest w.length
  rw [Instant.since_eq (by omega), ends]

theorem Tracks.remaining {w : Window} (fits : (w.length : Int) ≤ Int64.maxValue.toInt) {log : HitLog}
    {h : History} {before : Int} (tracks : w.Tracks log h before) (key : String) {now : Instant}
    (later : before ≤ now.toInt) :
    (w.answer log (.remaining key now)).1 = (w.judge h (.remaining key now)).1 ∧
      w.Tracks (w.answer log (.remaining key now)).2 (w.judge h (.remaining key now)).2 now.toInt := by
  have pruned := tracks.advance later
  have entry := pruned.holds.lookup_eq key
  simp only [answer, Window.remaining, judge, waitAfter]
  cases found : (log.prune (now.earlier w.length)).lookup key with
  | none =>
    rw [found] at entry
    simp only at entry
    rw [entry]
    exact ⟨rfl, pruned⟩
  | some ring =>
    rw [found] at entry
    simp only at entry ⊢
    rw [entry.1]
    cases recent : h.since key (now.toInt - w.length) with
    | nil => exact absurd (entry.1.trans recent) entry.2
    | cons oldest rest =>
      have member : oldest ∈ h.since key (now.toInt - w.length) := recent ▸ List.mem_cons_self ..
      have past := pruned.past _ (History.mem_since.mp member).1
      simp only
      split
      · exact ⟨rfl, pruned⟩
      · exact ⟨congrArg Reply.remaining (since_later_eq fits past), pruned⟩

/-- One query gets the same reply from both, and leaves them in step. -/
theorem Tracks.answer {w : Window} (fits : (w.length : Int) ≤ Int64.maxValue.toInt) {log : HitLog}
    {h : History} {before : Int} (tracks : w.Tracks log h before) {q : Query} (later : before ≤ q.now.toInt) :
    (w.answer log q).1 = (w.judge h q).1 ∧ w.Tracks (w.answer log q).2 (w.judge h q).2 q.now.toInt := by
  cases q with
  | hit key now => exact tracks.hit key later
  | remaining key now => exact tracks.remaining fits key later

/-- The time of the last query of a run that began after `before`. -/
def lastTime (before : Int) (queries : List Query) : Int :=
  (queries.getLast?.map fun q => q.now.toInt).getD before

theorem lastTime_cons (before : Int) (q : Query) (rest : List Query) :
    lastTime before (q :: rest) = lastTime q.now.toInt rest := by
  cases rest <;> simp [lastTime, List.getLast?_cons]

theorem Tracks.answers {w : Window} (fits : (w.length : Int) ≤ Int64.maxValue.toInt) {log : HitLog}
    {h : History} {before : Int} (tracks : w.Tracks log h before) {queries : List Query}
    (inOrder : queries.Pairwise fun p q => p.now.toInt ≤ q.now.toInt)
    (later : ∀ q ∈ queries, before ≤ q.now.toInt) :
    (w.answers log queries).1 = (w.judgements h queries).1 ∧
      w.Tracks (w.answers log queries).2 (w.judgements h queries).2 (lastTime before queries) := by
  induction queries generalizing log h before with
  | nil => exact ⟨rfl, tracks⟩
  | cons q rest ih =>
    obtain ⟨follows, tail⟩ := List.pairwise_cons.mp inOrder
    obtain ⟨reply, after⟩ := tracks.answer fits (later q (List.mem_cons_self ..))
    obtain ⟨replies, final⟩ := ih after tail follows
    rw [lastTime_cons]
    exact ⟨congrArg₂ List.cons reply replies, final⟩

/-- No key has more hits than its budget within any one window. -/
def Bounded (w : Window) (h : History) : Prop :=
  ∀ key start, (h.during key start w.length).length ≤ w.budget

/-- The hits in a window that a new hit falls into are all recent when it comes, so there were fewer of
them than the budget. -/
theorem Bounded.append {w : Window} {h : History} (bounded : w.Bounded h) {key : String} {now : Instant}
    (room : (h.since key (now.toInt - w.length)).length < w.budget) : w.Bounded (h ++ [(key, now)]) := by
  intro other start
  by_cases same : other = key
  · subst same
    by_cases inside : start ≤ now.toInt ∧ now.toInt ≤ start + w.length
    · have older : (h.during other start w.length).length ≤ (h.since other (now.toInt - w.length)).length := by
        have start' : now.toInt - w.length ≤ start := by omega
        rw [History.during, History.since_eq_filter start', List.filter_filter]
        exact List.length_filter_le ..
      have grown : (h ++ [(other, now)]).during other start w.length =
          h.during other start w.length ++ [now] := by
        simp [History.during, History.since_append_same inside.1, inside.2]
      rw [grown, List.length_append, List.length_singleton]
      omega
    · have unchanged : (h ++ [(other, now)]).during other start w.length = h.during other start w.length := by
        by_cases recent : start ≤ now.toInt
        · have late : ¬now.toInt ≤ start + w.length := fun early => inside ⟨recent, early⟩
          simp [History.during, History.since_append_same recent, late]
        · simp [History.during, History.since, recent]
      rw [unchanged]
      exact bounded other start
  · rw [History.during, History.since_append_other same]
    exact bounded other start

theorem Bounded.judge {w : Window} {h : History} (bounded : w.Bounded h) (q : Query) :
    w.Bounded (w.judge h q).2 := by
  cases q with
  | remaining key now => exact bounded
  | hit key now =>
    simp only [Window.judge]
    split
    · rename_i room
      exact bounded.append room
    · exact bounded

theorem Bounded.judgements {w : Window} {h : History} (bounded : w.Bounded h) (queries : List Query) :
    w.Bounded (w.judgements h queries).2 := by
  induction queries generalizing h with
  | nil => exact bounded
  | cons q rest ih => exact ih (bounded.judge q)

/-- A limiter that prunes all keys on every query answers as one that forgets nothing would. After each
query it holds the hits that can still count, under the keys that have some, and nothing else. So no
key ever gets more hits than its budget into one window, whatever is asked about other keys. -/
theorem answers_recall_every_hit {w : Window} (fits : (w.length : Int) ≤ Int64.maxValue.toInt)
    {queries : List Query} (inOrder : queries.Pairwise fun p q => p.now.toInt ≤ q.now.toInt) :
    (w.answers [] queries).1 = (w.judgements [] queries).1 ∧
    (∀ (before : List Query) (last : Query), before ++ [last] <+: queries →
      let log := (w.answers [] (before ++ [last])).2
      let accepted := (w.judgements [] (before ++ [last])).2
      let least := last.now.toInt - w.length
      (log.map Prod.fst).Nodup ∧
      (∀ key, (log.lookup key).map Ring.times =
        if accepted.since key least = [] then none else some (accepted.since key least)) ∧
      (∀ key, ChatCommands.Ordered (accepted.since key least)) ∧
      log.length = ((accepted.filter fun e => decide (least ≤ e.2.toInt)).map Prod.fst).dedup.length) ∧
    ∀ key start, ((w.judgements [] queries).2.during key start w.length).length ≤ w.budget := by
  have empty : w.Bounded [] := fun _ _ => by simp [History.during, History.since]
  have bounded := empty.judgements queries
  have tracks := Tracks.nil w Int64.minValue.toInt
  obtain ⟨replies, _⟩ := tracks.answers fits inOrder fun q _ => q.now.minValue_le_toInt
  refine ⟨replies, ?_, bounded⟩
  intro before last asked
  obtain ⟨_, final⟩ := tracks.answers fits (inOrder.sublist asked.sublist) fun q _ => q.now.minValue_le_toInt
  have time : lastTime Int64.minValue.toInt (before ++ [last]) = last.now.toInt := by
    rw [lastTime, List.getLast?_concat]
    rfl
  rw [time] at final
  exact ⟨final.holds.distinct, final.holds.lookup_times, fun key => final.ordered.since key _,
    final.holds.length_eq⟩

/-- Two keys at a time; the third hit of the first key comes while both earlier ones still count. -/
theorem answers_recall_every_hit_two_keys :
    ((⟨1000, 2⟩ : Window).answers []
      [.hit "ann" 0, .hit "bob" 10, .hit "ann" 10, .hit "ann" 1000, .remaining "ann" 1000, .hit "ann" 1001]).1 =
      [.hit true, .hit true, .hit true, .hit false, .remaining 0, .hit true] :=
  (answers_recall_every_hit (by decide) (by decide)).1.trans (by decide)

end ChatCommands.Window
