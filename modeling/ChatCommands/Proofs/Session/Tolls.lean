import ChatCommands.Proofs.Dispatch.Tolls
import ChatCommands.Proofs.RateLimit.Remaining
import ChatCommands.Proofs.Session.Remembrance

namespace ChatCommands

variable {α : Type}

namespace Window

variable {window : Window} {now : Instant} {before between after added : List Instant} {log : HitLog}

/-- What is left of a user's hits on a limit after a charge: of those `before` some last ones, then the hits
`added`. When the hits before are in order, those that stay are the ones in the window. -/
def Carries (window : Window) (now : Instant) (before after added : List Instant) : Prop :=
  ∃ kept, kept <:+ before ∧ after = kept ++ added ∧
    (Ordered before → kept = before.filter fun t => decide (now.toInt - window.length ≤ t.toInt))

theorem Carries.append (carries : window.Carries now before between []) (added : List Instant) :
    window.Carries now before (between ++ added) added := by
  obtain ⟨kept, last, rfl, recent⟩ := carries
  exact ⟨kept, last, by rw [List.append_nil], recent⟩

/-- To let go of old hits a second time at the same instant loses no hit in the window. -/
theorem Carries.again (carries : window.Carries now before between [])
    (carries' : window.Carries now between after []) : window.Carries now before after [] := by
  obtain ⟨kept, last, rfl, recent⟩ := carries
  obtain ⟨kept', last', rfl, recent'⟩ := carries'
  rw [List.append_nil] at last' recent'
  refine ⟨kept', last'.trans last, rfl, fun ordered => ?_⟩
  have still : Ordered kept := ordered.sublist last.sublist
  rw [recent' still, recent ordered, List.filter_filter]
  simp only [Bool.and_self]

theorem carries_prune (distinct : (log.map Prod.fst).Nodup) (window : Window) (now : Instant) (user : UserId) :
    window.Carries now (log.ringOf user).times ((log.prune (now.earlier window.length)).ringOf user).times [] := by
  have pruned := HitLog.ringOf_prune distinct (now.earlier window.length) user
  refine ⟨_, ?_, by rw [List.append_nil], fun ordered => ?_⟩
  · rw [pruned, Ring.drop]
    split
    · exact List.drop_suffix ..
    · exact List.nil_suffix
  · rw [pruned, Ring.times_drop ordered]
    refine List.filter_congr fun t _ => ?_
    rw [← decide_not]
    refine decide_eq_decide.mpr ?_
    rw [Instant.lt_earlier_iff, Int.not_lt]

theorem charge_of_room {key : UserId} (room : (window.left key now log).length < window.budget) :
    window.charge key now log = (.accepted, (log.prune (now.earlier window.length)).put key
      (((log.prune (now.earlier window.length)).ringOf key).push now)) := by
  have spare : ¬window.budget ≤ ((log.prune (now.earlier window.length)).ringOf key).times.length :=
    Nat.not_le.mpr room
  rw [HitLog.ringOf] at spare ⊢
  rw [charge, hit, if_neg spare]

theorem charge_of_full {key : UserId} (full : window.budget ≤ (window.left key now log).length) :
    ∃ wait, window.charge key now log =
      (.refused wait, (log.prune (now.earlier window.length)).prune (now.earlier window.length)) := by
  have spent : window.budget ≤ ((log.prune (now.earlier window.length)).ringOf key).times.length := full
  rw [HitLog.ringOf] at spent
  rw [charge, hit, if_pos spent]
  exact ⟨_, Prod.ext rfl (window.remaining_snd key now _)⟩

/-- A charge adds the hit of the user that is charged when there is room for it, and takes no hit in the window
from anyone. -/
theorem charge_carries (distinct : (log.map Prod.fst).Nodup) (key : UserId) :
    ((window.charge key now log).1 = .accepted ↔ (window.left key now log).length < window.budget) ∧
      ((window.charge key now log).2.map Prod.fst).Nodup ∧
      ∀ user, window.Carries now (log.ringOf user).times ((window.charge key now log).2.ringOf user).times
        (if user = key then (window.charge key now log).1.times now else []) := by
  have kept := carries_prune distinct window now
  have pruned : ((log.prune (now.earlier window.length)).map Prod.fst).Nodup :=
    distinct.sublist (log.keys_prune _)
  by_cases room : (window.left key now log).length < window.budget
  · rw [charge_of_room room]
    refine ⟨iff_of_true rfl room, HitLog.nodup_put pruned, fun user => ?_⟩
    rw [HitLog.ringOf_put]
    by_cases same : user = key
    · rw [if_pos same, if_pos same, Ring.times_push, ← same]
      exact (kept user).append [now]
    · rw [if_neg same, if_neg same]
      exact kept user
  · obtain ⟨wait, charged⟩ := charge_of_full (Nat.not_lt.mp room)
    rw [charged]
    have refused : Charge.refused wait ≠ .accepted := by
      intro same
      cases same
    refine ⟨iff_of_false refused room, pruned.sublist (HitLog.keys_prune _ _), fun user => ?_⟩
    have again := (kept user).again (carries_prune pruned window now user)
    split <;> exact again

end Window

namespace World

variable {w after : World} {log : List Exchange} {limiter : Limiter} {user : UserId} {now : Instant}

/-- The accepted hits that a limiter keeps. -/
def hitsOn (w : World) (limiter : Limiter) : HitLog := (w.limits.lookup limiter).getD []

/-- Each user has at most one entry among the hits that a limiter keeps. -/
def Keyed (w : World) : Prop := ∀ limiter, ((w.hitsOn limiter).map Prod.fst).Nodup

theorem lookup_charge (w : World) (limiter : Limiter) (user : UserId) (now : Instant) (other : Limiter) :
    (w.charge limiter user now).2.limits.lookup other =
      if other = limiter then some (limiter.window.charge user now (w.hitsOn limiter)).2 else w.limits.lookup other :=
  lookup_setEntry ..

theorem keyed_of_fresh (fresh : w.limits = []) : w.Keyed := by
  intro limiter
  rw [hitsOn, fresh]
  exact List.nodup_nil

theorem Keyed.of_limits_eq (keyed : w.Keyed) (same : after.limits = w.limits) : after.Keyed := by
  intro limiter
  rw [hitsOn, same]
  exact keyed limiter

theorem Keyed.charge (keyed : w.Keyed) : (w.charge limiter user now).2.Keyed := by
  intro other
  rw [hitsOn, lookup_charge]
  split
  · exact (limiter.window.charge_carries (keyed limiter) user).2.1
  · exact keyed other

theorem Serves.keyed (serves : w.Serves log after) (keyed : w.Keyed) : after.Keyed := by
  induction serves with
  | nil kept => exact keyed.of_limits_eq kept
  | charge _ ih => exact ih keyed.charge
  | other _ kept _ ih => exact ih (keyed.of_limits_eq kept)

theorem Serves.lookup_eq (serves : w.Serves log after) (free : limiter ∉ log.filterMap Exchange.charged?) :
    after.limits.lookup limiter = w.limits.lookup limiter := by
  induction serves with
  | nil kept => rw [kept]
  | @charge w after charged user now log _ ih =>
    have split : (⟨.charge charged user now, (w.charge charged user now).1⟩ :: log).filterMap
        Exchange.charged? = charged :: log.filterMap Exchange.charged? := rfl
    rw [split, List.mem_cons, not_or] at free
    rw [ih free.2, lookup_charge, if_neg free.1]
  | other quiet kept _ ih =>
    rw [List.filterMap_cons, Exchange.charged?_eq_none quiet] at free
    rw [ih free, kept]

/-- What is charged once is charged as if nothing else were. -/
theorem Serves.charged_once {charge : Charge} (serves : w.Serves log after)
    (once : (log.filterMap Exchange.charged?).Nodup) (member : ⟨.charge limiter user now, charge⟩ ∈ log) :
    charge = (limiter.window.charge user now (w.hitsOn limiter)).1 ∧
      after.hitsOn limiter = (limiter.window.charge user now (w.hitsOn limiter)).2 := by
  obtain ⟨first, later, rfl⟩ := List.append_of_mem member
  have split : (first ++ ⟨.charge limiter user now, charge⟩ :: later).filterMap Exchange.charged? =
      first.filterMap Exchange.charged? ++ limiter :: later.filterMap Exchange.charged? := by
    rw [List.filterMap_append]
    rfl
  rw [split] at once
  obtain ⟨_, behind, apart⟩ := List.nodup_append.mp once
  have fresh : limiter ∉ first.filterMap Exchange.charged? := fun again =>
    apart limiter again limiter (List.mem_cons_self ..) rfl
  obtain ⟨between, front, back⟩ := serves.split
  obtain ⟨answered, rest⟩ := back.answered
  have same : between.hitsOn limiter = w.hitsOn limiter := by rw [hitsOn, front.lookup_eq fresh, hitsOn]
  refine ⟨?_, ?_⟩
  · rw [answered, ← same]
    rfl
  · rw [hitsOn, rest.lookup_eq (List.nodup_cons.mp behind).1, lookup_charge, if_pos rfl, same]
    rfl

end World

namespace Invocation

variable {inv : Invocation α} {c last n : Command α} {tokens : List String} {own : List Exchange}
variable {visited : List (Command α)} {charge : Charge} {w between : World}

/-- What the hits on a command come to when its limit is charged: one more hit of the invoker at the instant of
dispatch, or none when the budget is used up. -/
def Records (inv : Invocation α) (w between : World) (c : Command α) (charge : Charge) : Prop :=
  ∀ limiter, c.limiter? = some limiter →
    (charge = .accepted ↔
      (limiter.window.left inv.author inv.time (w.hitsOn limiter)).length < limiter.window.budget) ∧
    ∀ user, limiter.window.Carries inv.time ((w.hitsOn limiter).ringOf user).times
      ((between.hitsOn limiter).ringOf user).times (if user = inv.author then charge.times inv.time else [])

/-- What the hits on limits come to when these commands are charged, all accept but perhaps the last, and nothing
else is charged. -/
structure Marks (inv : Invocation α) (w between : World) (visited : List (Command α)) (last : Command α)
    (charge : Charge) : Prop where
  passed : ∀ n ∈ visited, inv.Records w between n .accepted
  final : inv.Records w between last charge
  elsewhere : ∀ limiter, limiter ∉ Command.limiters (visited ++ [last]) →
    between.limits.lookup limiter = w.limits.lookup limiter

theorem records_of_mem (keyed : w.Keyed) (serves : w.Serves own between)
    (once : (own.filterMap Exchange.charged?).Nodup) (member : ∀ e ∈ inv.toll n charge, e ∈ own) :
    inv.Records w between n charge := by
  intro limiter limits
  obtain ⟨limit, limited, rfl⟩ := Option.map_eq_some_iff.mp limits
  have hit : inv.hit n limit charge ∈ own := by
    refine member _ ?_
    rw [toll, limited]
    exact List.mem_singleton_self _
  obtain ⟨rfl, left⟩ := serves.charged_once once hit
  obtain ⟨accepted, _, carries⟩ :=
    (limit.limiter n.fullName).window.charge_carries (keyed (limit.limiter n.fullName)) inv.author
  refine ⟨accepted, fun user => ?_⟩
  rw [← left] at carries
  exact carries user

theorem Tolls.marks (tolls : inv.Tolls c tokens own visited last charge)
    (once : (own.filterMap Exchange.charged?).Nodup) (keyed : w.Keyed) (serves : w.Serves own between) :
    inv.Marks w between visited last charge := by
  have paid : ∀ e ∈ visited.flatMap (inv.toll · .accepted) ++ inv.toll last charge, e ∈ own := by
    intro e charged
    rw [← tolls.charged] at charged
    exact List.mem_of_mem_filter charged
  refine ⟨fun n member => ?_, ?_, fun limiter free => serves.lookup_eq (tolls.charged? ▸ free)⟩
  · refine records_of_mem keyed serves once fun e charged => paid e ?_
    exact List.mem_append_left _ (List.mem_flatMap.mpr ⟨n, member, charged⟩)
  · exact records_of_mem keyed serves once fun e charged => paid e (List.mem_append_right _ charged)

end Invocation

namespace Bot

variable {bot : Bot α} {inv : Invocation α} {tokens : List String} {log : List Exchange}
variable {result : Except CommandError Bool} {w after : World}

/-- Worlds to which the handling of messages leads have no user twice among the hits that a limiter keeps. -/
theorem HandlesEach.keyed {runs : List (Handled α)} (each : bot.HandlesEach w runs after) (fresh : w.limits = []) :
    after.Keyed :=
  each.serves.keyed (World.keyed_of_fresh fresh)

/-- A run of a command charges the limits of the commands on the route that the tokens name, from where it
begins, when no two commands of the tree share a limiter. They are charged from the top down, by the
invoker, at the instant of dispatch, each once, until one refuses or the route ends. Each command visited
before the last has one hit more, and so has the last one unless it refuses, which then ends the run. This
stays so whatever else becomes of the run, be the tokens wrong or the reply lost. Nobody loses a hit in a
window. The hits on all other commands of the tree are as they were, and nothing else changes those hits but
what an action charges itself. -/
theorem execute_charges_route {d : Draft α} {top c : Command α} {above : List (Command α)}
    (built : d.build = .ok top) (unshared : Command.Unshared [top]) (place : Command.Lineage [top] above c)
    (run : (bot.execute inv c tokens).run.Held log result) (keyed : w.Keyed) (serves : w.Serves log after) :
    ∃ own during visited last charge between, log = own ++ during ∧
      bot.Executes inv c tokens own during result ∧ w.Serves own between ∧ between.Serves during after ∧
      inv.Tolls c tokens own visited last charge ∧ (charge ≠ .accepted → during = [] ∧ result ≠ .ok true) ∧
      inv.Marks w between visited last charge ∧
      (∀ {above' n limiter}, Command.Lineage [top] above' n → n.limiter? = some limiter → n ∉ visited ++ [last] →
        between.limits.lookup limiter = w.limits.lookup limiter) ∧
      (during.any Exchange.charges = false → after.limits = between.limits) := by
  have sound : ∀ c ∈ [top], c.WellFormed none := List.forall_mem_singleton.mpr (Draft.wellFormed_of_build built)
  obtain ⟨own, during, rfl, course⟩ := executes_of_held run
  obtain ⟨visited, last, charge, tolls, stops⟩ := course.tolls
  obtain ⟨between, front, back⟩ := serves.split
  have marks := tolls.marks (tolls.nodup_charged? sound unshared place) keyed front
  refine ⟨own, during, visited, last, charge, between, rfl, course, front, back, tolls, stops, marks, ?_,
    back.limits_eq⟩
  intro above' n limiter reach limited unvisited
  refine marks.elsewhere _ fun again => ?_
  obtain ⟨m, there, limited'⟩ := List.mem_filterMap.mp again
  obtain ⟨_, reach'⟩ := place.of_mem_route (tolls.route.subset there)
  exact unvisited (unshared _ _ n m limiter reach reach' limited limited' ▸ there)

end Bot

namespace Throttled

/-- Two calls a second. -/
def wide : RateLimit := limitOf ⟨1000, 2⟩

def take : Draft Unit where
  name := "take"
  documentation := ⟨"Take a book", none, []⟩
  rateLimit? := some limit
  action? := some ()

def bring : Draft Unit where
  name := "bring"
  documentation := ⟨"Bring a book back", none, []⟩
  rateLimit? := some limit
  action? := some ()

/-- A branch with a limit, and two leaves below it that have stricter ones. -/
def shelf : Draft Unit where
  name := "shelf"
  documentation := ⟨"Books to lend", none, []⟩
  rateLimit? := some wide
  subcommands := [take, bring]

def taker : Command Unit := .leaf (take.profileUnder (some "shelf") "default") .empty ()

def bringer : Command Unit := .leaf (bring.profileUnder (some "shelf") "default") .empty ()

def shelved : Command Unit := .branch (shelf.profileUnder none "default") [taker, bringer]

theorem mem_shelf {above : List (Command Unit)} {c : Command Unit} (place : Command.Lineage [shelved] above c) :
    c ∈ [shelved, taker, bringer] := by
  induction place with
  | top member => exact List.mem_singleton.mp member ▸ List.mem_cons_self ..
  | child _ member ih =>
    simp only [List.mem_cons, List.not_mem_nil, or_false] at ih
    obtain rfl | rfl | rfl := ih
    · exact List.mem_cons_of_mem _ member
    · cases member
    · cases member

theorem shelf_unshared : Command.Unshared [shelved] := by
  have formed := Draft.wellFormed_of_build (rfl : shelf.build = .ok shelved)
  have distinct : Command.Distinct [shelved] := by
    rw [Command.Distinct, List.flatMap_singleton]
    exact formed.fits.distinct
  have own : ∀ c ∈ [shelved, taker, bringer], ∀ limit, c.profile.rateLimit? = some limit → limit.share? = none := by
    simp only [List.forall_mem_cons]
    refine ⟨?_, ?_, ?_, List.forall_mem_nil _⟩ <;> rintro limit ⟨⟩ <;> rfl
  exact Command.unshared_of_own distinct (List.forall_mem_singleton.mpr formed) fun place => own _ (mem_shelf place) _

def taking (time : Instant) : Invocation Unit := ⟨bot.registry, bot.config, call "!shelf take", time⟩

/-- The hits of one call of a leaf. -/
def taken : World :=
  ((start.charge (wide.limiter "shelf") "2" 0).2.charge (limit.limiter "shelf take") "2" 0).2

def again : List Exchange :=
  [⟨.charge (wide.limiter "shelf") "2" 10, .accepted⟩, ⟨.charge (limit.limiter "shelf take") "2" 10, .refused 990⟩,
    ⟨.chat (.send "general" (notice 1)), .ok (call (notice 1))⟩, ⟨.deleteLater (call (notice 1)) 5000, ()⟩]

/-- The second call of a leaf is refused there, after the branch above has accepted it. The other leaf has no hit. -/
theorem execute_charges_route_refused :
    ∃ after, (bot.execute (taking 10) shelved ["take"]).run.Held again (.ok false) ∧ taken.Serves again after ∧
      ((after.hitsOn (wide.limiter "shelf")).ringOf "2").times = [0, 10] ∧
      ((after.hitsOn (limit.limiter "shelf take")).ringOf "2").times = [0] ∧
      after.limits.lookup (limit.limiter "shelf bring") = none := by
  have built : shelf.build = .ok shelved := rfl
  have place : Command.Lineage [shelved] [] shelved := .top (List.mem_singleton_self _)
  have run : (bot.execute (taking 10) shelved ["take"]).run.Held again (.ok false) :=
    .ask (.ask (.ask (.ask .done)))
  have reached : start.Serves _ taken := .charge (.charge (.nil rfl))
  have keyed := reached.keyed (World.keyed_of_fresh rfl)
  let passed := (taken.charge (wide.limiter "shelf") "2" 10).2
  have room : (taken.charge (wide.limiter "shelf") "2" 10).1 = .accepted := by decide +kernel
  have full : (passed.charge (limit.limiter "shelf take") "2" 10).1 = .refused 990 := by decide +kernel
  have refuses : passed.Serves again.tail (passed.charge (limit.limiter "shelf take") "2" 10).2 :=
    .charged full (.other rfl rfl (.other rfl rfl (.nil rfl)))
  have serves : taken.Serves again (passed.charge (limit.limiter "shelf take") "2" 10).2 := .charged room refuses
  obtain ⟨own, during, visited, last, charge, between, _, course, _, _, tolls, _, _, kept, rest⟩ :=
    Bot.execute_charges_route built shelf_unshared place run keyed serves
  have quiet : during.any Exchange.charges = false := by
    cases course
    rfl
  have unvisited : bringer ∉ visited ++ [last] := by
    intro member
    have there := tolls.route.subset member
    have names : (shelved.route ["take"]).map Command.fullName = ["shelf", "shelf take"] := rfl
    have listed := List.mem_map_of_mem (f := Command.fullName) there
    rw [names] at listed
    exact absurd listed (by decide)
  refine ⟨_, run, serves, by decide +kernel, by decide +kernel, ?_⟩
  have below : Command.Lineage [shelved] [shelved] bringer := place.child (.tail _ (List.mem_singleton_self _))
  have limited : bringer.limiter? = some (limit.limiter "shelf bring") := rfl
  rw [rest quiet, kept below limited unvisited]
  decide +kernel

end Throttled

end ChatCommands
