import ChatCommands.Proofs.Session.Budget

namespace ChatCommands

variable {α : Type}

theorem History.since_eq_filter_hitsOf {h : History} {key : String} {least : Int} :
    h.since key least = (h.hitsOf key).filter fun t => decide (least ≤ t.toInt) := by
  simp only [since, hitsOf, List.filter_map, List.filter_filter]
  congr 1
  exact List.filter_congr fun e _ => Bool.and_comm ..

theorem History.hitsOf_append (h later : History) (key : String) :
    (h ++ later).hitsOf key = h.hitsOf key ++ later.hitsOf key := by
  rw [hitsOf, List.filter_append, List.map_append]
  rfl

/-- How long a key has to wait whose budget these hits have used up. -/
def Window.waitSince (window : Window) (now : Instant) : List Instant → Nat
  | [] => 0
  | oldest :: _ => (oldest.later window.length).since now

/-- What becomes of a hit of a key with these accepted hits. The hits of other keys have no part in it. -/
def Window.verdict (window : Window) (hits : List Instant) (now : Instant) : Charge :=
  let recent := hits.filter fun t => decide (now.toInt - window.length ≤ t.toInt)
  if recent.length < window.budget then .accepted else .refused (window.waitSince now recent)

theorem Window.Tracks.remaining_full {window : Window} {log : HitLog} {h : History} {before : Int}
    (tracks : window.Tracks log h before) (key : String) {now : Instant} (later : before ≤ now.toInt)
    (full : ¬ (h.since key (now.toInt - window.length)).length < window.budget) :
    (window.remaining key now log).1 = window.waitSince now (h.since key (now.toInt - window.length)) := by
  have entry := (tracks.advance later).holds.lookup_eq key
  simp only [Window.remaining]
  cases found : (log.prune (now.earlier window.length)).lookup key with
  | none =>
    rw [found] at entry
    exact (congrArg (window.waitSince now) entry).symm
  | some ring =>
    rw [found] at entry
    simp only at entry ⊢
    rw [entry.1]
    cases recent : h.since key (now.toInt - window.length) with
    | nil => exact absurd (entry.1.trans recent) entry.2
    | cons oldest rest =>
      rw [recent] at full
      exact congrArg Prod.fst (if_neg full)

theorem Window.Tracks.charge_eq {window : Window} {log : HitLog} {h : History} {before : Int}
    (tracks : window.Tracks log h before) (key : String) {now : Instant} (later : before ≤ now.toInt) :
    (window.charge key now log).1 = window.verdict (h.hitsOf key) now := by
  obtain ⟨reply, middle⟩ := tracks.hit key later
  simp only [Window.answer, Window.judge] at reply middle
  rw [verdict, ← History.since_eq_filter_hitsOf]
  cases tried : window.hit key now log with
  | mk accepted pruned =>
    rw [tried] at reply middle
    rw [Window.charge, tried]
    by_cases room : (h.since key (now.toInt - window.length)).length < window.budget
    · rw [if_pos room] at reply ⊢
      cases reply
      rfl
    · rw [if_neg room] at reply middle ⊢
      cases reply
      exact congrArg Charge.refused (middle.remaining_full key (Int.le_refl _) room)

/-- The times at which a charge accepts a hit: once, or not at all. -/
def Charge.times (now : Instant) : Charge → List Instant
  | accepted => [now]
  | refused _ => []

theorem Charge.hitsOf_granted {charged user : UserId} {now : Instant} (charge : Charge) :
    (charge.granted charged now).hitsOf user = if charged = user then charge.times now else [] := by
  cases charge with
  | accepted =>
    by_cases same : charged = user
    · simp [granted, History.hitsOf, times, same]
    · simp [granted, History.hitsOf, same]
  | refused wait => exact (ite_self []).symm

namespace Exchange

/-- A hit for which a user is charged, and by which limiter. -/
def toll? (user : UserId) : Exchange → Option (Limiter × Instant)
  | ⟨.charge limiter charged now, _⟩ => if charged = user then some (limiter, now) else none
  | _ => none

/-- The hits for which a user is charged, whatever comes of them. -/
def tolls (user : UserId) (log : List Exchange) : List (Limiter × Instant) := log.filterMap (toll? user)

variable {e : Exchange} {user : UserId} {log : List Exchange}

theorem toll?_eq_none (free : e.charges = false) (user : UserId) : e.toll? user = none := by
  unfold toll?
  split
  · cases free
  · rfl

theorem tolls_append (first later : List Exchange) :
    tolls user (first ++ later) = tolls user first ++ tolls user later :=
  List.filterMap_append

theorem tolls_eq_nil (free : ∀ e ∈ log, e.charges = false) (user : UserId) : tolls user log = [] :=
  List.filterMap_eq_nil_iff.mpr fun e member => toll?_eq_none (free e member) user

/-- Where others are charged, a user is not. -/
theorem tolls_eq_nil_of_levies {r : Registry α} {charged : UserId} {now : Instant}
    (levied : ∀ e ∈ log, e.charges = true → r.Levies charged now e) (other : charged ≠ user) :
    tolls user log = [] := by
  refine List.filterMap_eq_nil_iff.mpr fun e member => ?_
  cases charges : e.charges with
  | false => exact toll?_eq_none charges user
  | true =>
    obtain ⟨limiter, charge, _, rfl⟩ := levied e member charges
    exact if_neg other

end Exchange

/-- The accepted hits of a user on each limiter, once the user is charged for another. -/
def recollect (mine : Limiter → List Instant) (toll : Limiter × Instant) (limiter : Limiter) : List Instant :=
  if toll.1 = limiter then mine limiter ++ (limiter.window.verdict (mine limiter) toll.2).times toll.2
  else mine limiter

namespace World

variable {w after : World} {r : Registry α} {user charged : UserId} {mine : Limiter → List Instant}
variable {limiter : Limiter} {now : Instant} {answer : Charge} {e : Exchange} {log : List Exchange}

theorem Serves.free (serves : w.Serves (e :: log) after) (free : e.charges = false) :
    ∃ next : World, next.limits = w.limits ∧ next.Serves log after := by
  cases serves with
  | charge => cases free
  | other _ kept later => exact ⟨_, kept, later⟩

theorem Serves.answered (serves : w.Serves (⟨.charge limiter user now, answer⟩ :: log) after) :
    answer = (w.charge limiter user now).1 ∧ (w.charge limiter user now).2.Serves log after := by
  cases serves with
  | charge later => exact ⟨rfl, later⟩
  | other free => cases free

/-- The world serves some exchanges. It has the accepted hits of a user on the limiters of the registry as `mine`
tells them, and these are asked for hits in the order of time. -/
structure Recalls (w : World) (r : Registry α) (user : UserId) (mine : Limiter → List Instant)
    (log : List Exchange) : Prop where
  serves : ∃ after, w.Serves log after
  keeps : ∀ limiter, r.Limits limiter →
    ∃ h top, w.Keeps limiter h top ∧ h.hitsOf user = mine limiter ∧ Exchange.Timely limiter top log

theorem Recalls.of_fresh (serves : w.Serves log after)
    (fresh : ∀ limiter, r.Limits limiter → w.limits.lookup limiter = none)
    (inOrder : ∀ limiter, r.Limits limiter → Exchange.InOrder limiter log) (user : UserId) :
    w.Recalls r user (fun _ => []) log := by
  refine ⟨⟨after, serves⟩, fun limiter member => ?_⟩
  exact ⟨[], _, .of_fresh (fresh limiter member), rfl, (inOrder limiter member).timely⟩

theorem Recalls.free (recalls : w.Recalls r user mine (e :: log)) (free : e.charges = false) :
    ∃ next : World, next.Recalls r user mine log := by
  obtain ⟨⟨after, serves⟩, keeps⟩ := recalls
  obtain ⟨next, same, later⟩ := serves.free free
  refine ⟨next, ⟨after, later⟩, fun limiter member => ?_⟩
  obtain ⟨h, top, kept, hits, timely⟩ := keeps limiter member
  exact ⟨h, top, kept.of_limits_eq same, hits, timely.skip (Exchange.chargedAt?_eq_none free limiter)⟩

/-- The answer to a charge depends on nobody's hits but those of the user who is charged. -/
theorem Recalls.charge_eq (recalls : w.Recalls r user mine (⟨.charge limiter user now, answer⟩ :: log))
    (member : r.Limits limiter) : answer = limiter.window.verdict (mine limiter) now := by
  obtain ⟨⟨after, serves⟩, keeps⟩ := recalls
  obtain ⟨h, top, kept, hits, timely⟩ := keeps limiter member
  obtain ⟨last, past, tracks⟩ := kept.tracks
  rw [serves.answered.1, ← hits]
  exact tracks.charge_eq user (Int.le_trans past timely.charged.1)

/-- A charge adds to the hits of the user who is charged, and to nobody else's. -/
theorem Recalls.charge (recalls : w.Recalls r user mine (⟨.charge limiter charged now, answer⟩ :: log)) :
    (w.charge limiter charged now).2.Recalls r user
      ((Exchange.tolls user [⟨.charge limiter charged now, answer⟩]).foldl recollect mine) log := by
  obtain ⟨⟨after, serves⟩, keeps⟩ := recalls
  obtain ⟨told, later⟩ := serves.answered
  refine ⟨⟨after, later⟩, fun limiter' member => ?_⟩
  obtain ⟨h, top, kept, hits, timely⟩ := keeps limiter' member
  by_cases same : limiter = limiter'
  · subst same
    obtain ⟨past, rest⟩ := timely.charged
    refine ⟨_, _, kept.charge past limiter charged, ?_, rest⟩
    rw [History.hitsOf_append, hits, Exchange.granted, if_pos rfl, Charge.hitsOf_granted, ← told]
    by_cases own : charged = user
    · subst own
      obtain ⟨last, before, tracks⟩ := kept.tracks
      have verdict : answer = limiter.window.verdict (mine limiter) now := by
        rw [told, ← hits]
        exact tracks.charge_eq charged (Int.le_trans before past)
      simp [Exchange.tolls, Exchange.toll?, recollect, verdict]
    · simp [Exchange.tolls, Exchange.toll?, own]
  · refine ⟨h, top, kept.charge_of_ne same charged now, ?_, timely.skip (if_neg same)⟩
    rw [hits]
    by_cases own : charged = user
    · simp [Exchange.tolls, Exchange.toll?, recollect, own, same]
    · simp [Exchange.tolls, Exchange.toll?, own]

/-- What a world remembers of a user after some exchanges depends on the charges of that user among them, and on
nothing else. -/
theorem Recalls.past {first : List Exchange} (recalls : w.Recalls r user mine (first ++ log)) :
    ∃ next : World, next.Recalls r user ((Exchange.tolls user first).foldl recollect mine) log := by
  induction first generalizing w mine with
  | nil => exact ⟨w, recalls⟩
  | cons e rest ih =>
    rw [← List.singleton_append, Exchange.tolls_append, List.foldl_append]
    cases charges : e.charges with
    | false =>
      obtain ⟨next, later⟩ := Recalls.free recalls charges
      rw [Exchange.tolls_eq_nil (List.forall_mem_singleton.mpr charges)]
      exact ih later
    | true =>
      obtain ⟨request, answer⟩ := e
      cases request with
      | charge => exact ih (Recalls.charge recalls)
      | _ => cases charges

end World

end ChatCommands
