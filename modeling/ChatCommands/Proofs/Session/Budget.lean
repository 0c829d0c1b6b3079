import ChatCommands.Proofs.Chat.Entries
import ChatCommands.Proofs.Dispatch.Charging
import ChatCommands.Proofs.RateLimit.Lateness
import ChatCommands.Proofs.Session.Limits

namespace ChatCommands

variable {α : Type}

/-- The hit that a charge accepts, if it does. -/
def Charge.granted (user : UserId) (now : Instant) : Charge → History
  | accepted => [(user, now)]
  | refused _ => []

namespace Exchange

/-- The hit that an exchange brings to a limiter, if it is accepted there. -/
def granted (limiter : Limiter) : Exchange → History
  | ⟨.charge charged user now, charge⟩ => if charged = limiter then charge.granted user now else []
  | _ => []

/-- The time of the hit for which an exchange asks a limiter, if it does. -/
def chargedAt? (limiter : Limiter) : Exchange → Option Instant
  | ⟨.charge charged _ now, _⟩ => if charged = limiter then some now else none
  | _ => none

/-- The times at which a limiter is asked for hits, by whomsoever. -/
def times (limiter : Limiter) (log : List Exchange) : List Instant := log.filterMap (chargedAt? limiter)

/-- A limiter is asked for hits in the order of time. -/
def InOrder (limiter : Limiter) (log : List Exchange) : Prop :=
  (times limiter log).Pairwise fun s t => s.toInt ≤ t.toInt

/-- A limiter is asked for hits in the order of time, and never before the time `top`. -/
structure Timely (limiter : Limiter) (top : Int) (log : List Exchange) : Prop where
  inOrder : InOrder limiter log
  later : ∀ time ∈ times limiter log, top ≤ time.toInt

variable {e : Exchange} {log : List Exchange} {limiter : Limiter} {user : UserId} {now : Instant}
variable {charge : Charge} {top : Int}

theorem InOrder.timely (inOrder : InOrder limiter log) : Timely limiter Int64.minValue.toInt log :=
  ⟨inOrder, fun time _ => time.minValue_le_toInt⟩

theorem Timely.skip (timely : Timely limiter top (e :: log)) (idle : e.chargedAt? limiter = none) :
    Timely limiter top log := by
  obtain ⟨inOrder, later⟩ := timely
  rw [InOrder, times, List.filterMap_cons_none idle] at inOrder
  rw [times, List.filterMap_cons_none idle] at later
  exact ⟨inOrder, later⟩

theorem Timely.charged (timely : Timely limiter top (⟨.charge limiter user now, charge⟩ :: log)) :
    top ≤ now.toInt ∧ Timely limiter now.toInt log := by
  obtain ⟨inOrder, later⟩ := timely
  have asked : chargedAt? limiter ⟨.charge limiter user now, charge⟩ = some now := if_pos rfl
  rw [InOrder, times, List.filterMap_cons_some asked] at inOrder
  rw [times, List.filterMap_cons_some asked] at later
  obtain ⟨follow, rest⟩ := List.pairwise_cons.mp inOrder
  exact ⟨later now (List.mem_cons_self ..), rest, follow⟩

theorem granted_eq_nil (free : e.charges = false) (limiter : Limiter) : e.granted limiter = [] := by
  unfold granted
  split
  · cases free
  · rfl

theorem chargedAt?_eq_none (free : e.charges = false) (limiter : Limiter) : e.chargedAt? limiter = none := by
  unfold chargedAt?
  split
  · cases free
  · rfl

theorem chargedAt?_eq_some {time : Instant} (charged : e.chargedAt? limiter = some time) :
    ∃ user charge, e = ⟨.charge limiter user time, charge⟩ := by
  unfold chargedAt? at charged
  split at charged
  · split at charged
    · rename_i same
      cases charged
      cases same
      exact ⟨_, _, rfl⟩
    · cases charged
  · cases charged

end Exchange

theorem History.during_append (h later : History) (key : String) (start : Int) (span : Nat) :
    (h ++ later).during key start span = h.during key start span ++ later.during key start span := by
  rw [during_eq_filter, during_eq_filter, during_eq_filter, hitsOf, List.filter_append, List.map_append,
    List.filter_append]
  rfl

/-- A charge leaves the log in step with the hits accepted, and these within bounds. -/
theorem Window.Tracks.charge {window : Window} {log : HitLog} {h : History} {before : Int}
    (tracks : window.Tracks log h before) (bounded : window.Bounded h) (key : String) {now : Instant}
    (later : before ≤ now.toInt) :
    window.Tracks (window.charge key now log).2 (h ++ (window.charge key now log).1.granted key now) now.toInt ∧
      window.Bounded (h ++ (window.charge key now log).1.granted key now) := by
  obtain ⟨reply, after⟩ := tracks.hit key later
  simp only [Window.answer, Window.judge] at reply after
  cases tried : window.hit key now log with
  | mk accepted pruned =>
    rw [tried] at reply after
    cases accepted with
    | true =>
      have charged : window.charge key now log = (.accepted, pruned) := by rw [Window.charge, tried]
      rw [charged]
      split at reply
      · rename_i room
        rw [if_pos room] at after
        exact ⟨after, bounded.append room⟩
      · cases reply
    | false =>
      have charged : window.charge key now log =
          (.refused (window.remaining key now pruned).1, pruned.prune (now.earlier window.length)) := by
        rw [Window.charge, tried, ← window.remaining_snd key]
      rw [charged]
      split at reply
      · cases reply
      · rename_i full
        rw [if_neg full] at after
        rw [Charge.granted, List.append_nil]
        exact ⟨after.advance (Int.le_refl _), bounded⟩

namespace World

variable {w after : World} {limiter : Limiter} {h : History} {top : Int}

/-- The hits that a limiter has accepted up to the time `top` are within bounds, and those that the world still has
are in step with them. -/
structure Keeps (w : World) (limiter : Limiter) (h : History) (top : Int) : Prop where
  bounded : limiter.window.Bounded h
  tracks : ∃ last ≤ top, limiter.window.Tracks ((w.limits.lookup limiter).getD []) h last

theorem Keeps.of_fresh (fresh : w.limits.lookup limiter = none) : w.Keeps limiter [] Int64.minValue.toInt := by
  refine ⟨fun _ _ => by simp [History.during, History.since], _, Int.le_refl _, ?_⟩
  rw [fresh]
  exact Window.Tracks.nil ..

theorem Keeps.of_limits_eq (keeps : w.Keeps limiter h top) (same : after.limits = w.limits) :
    after.Keeps limiter h top :=
  ⟨keeps.bounded, same ▸ keeps.tracks⟩

theorem Keeps.charge {now : Instant} (keeps : w.Keeps limiter h top) (later : top ≤ now.toInt) (charged : Limiter)
    (user : UserId) : (w.charge charged user now).2.Keeps limiter
      (h ++ Exchange.granted limiter ⟨.charge charged user now, (w.charge charged user now).1⟩) now.toInt := by
  obtain ⟨last, past, tracks⟩ := keeps.tracks
  by_cases same : charged = limiter
  · subst same
    obtain ⟨tracks', bounded'⟩ := tracks.charge keeps.bounded user (Int.le_trans past later)
    rw [Exchange.granted, if_pos rfl]
    refine ⟨bounded', now.toInt, Int.le_refl _, ?_⟩
    rw [World.charge, lookup_setEntry, if_pos rfl]
    exact tracks'
  · rw [Exchange.granted, if_neg same, List.append_nil]
    refine ⟨keeps.bounded, last, Int.le_trans past later, ?_⟩
    rw [World.charge, lookup_setEntry, if_neg (Ne.symm same)]
    exact tracks

theorem Keeps.charge_of_ne {charged : Limiter} (keeps : w.Keeps limiter h top) (other : charged ≠ limiter)
    (user : UserId) (now : Instant) : (w.charge charged user now).2.Keeps limiter h top := by
  refine ⟨keeps.bounded, ?_⟩
  rw [World.charge, lookup_setEntry, if_neg (Ne.symm other)]
  exact keeps.tracks

/-- Exchanges that ask a limiter for hits in the order of time keep its hits within bounds. What they ask other
limiters for, and when, makes no difference. -/
theorem Serves.bounded {log : List Exchange} (serves : w.Serves log after) (keeps : w.Keeps limiter h top)
    (timely : Exchange.Timely limiter top log) :
    limiter.window.Bounded (h ++ log.flatMap (Exchange.granted limiter)) := by
  induction serves generalizing h top with
  | nil =>
    rw [List.flatMap_nil, List.append_nil]
    exact keeps.bounded
  | @charge w after charged user now log _ ih =>
    rw [List.flatMap_cons, ← List.append_assoc]
    by_cases same : charged = limiter
    · subst same
      obtain ⟨later, rest⟩ := timely.charged
      exact ih (keeps.charge later charged user) rest
    · rw [Exchange.granted, if_neg same, List.append_nil]
      exact ih (keeps.charge_of_ne same user now) (timely.skip (if_neg same))
  | other free same _ ih =>
    rw [List.flatMap_cons, Exchange.granted_eq_nil free, List.nil_append]
    exact ih (keeps.of_limits_eq same) (timely.skip (Exchange.chargedAt?_eq_none free limiter))

end World

/-- A message that has been handled: the exchanges of the bot's own, the action that ran, if any, the exchanges
while it ran, and the result. -/
structure Handled (α : Type) where
  message : Message
  own : List Exchange
  act? : Option (Act α)
  during : List Exchange
  result : Except CommandError Outcome

namespace Handled

def log (run : Handled α) : List Exchange := run.own ++ run.during

/-- The instant of dispatch. Messages that call for no command, or for one that is refused to them, have none. -/
def time? (run : Handled α) : Option Instant := run.own.findSome? Exchange.clock?

/-- An invocation of a user, dispatched in the `span` milliseconds from `start` on. -/
def FallsIn (run : Handled α) (user : UserId) (start : Int) (span : Nat) : Prop :=
  run.message.author = user ∧ ∃ time, run.time? = some time ∧ time.within start span = true

/-- The limiter of a command accepts a hit. -/
def Passes (run : Handled α) (c : Command α) : Prop :=
  ∃ limiter user time, c.limiter? = some limiter ∧ ⟨.charge limiter user time, .accepted⟩ ∈ run.own

/-- An action ran, of a leaf at or below the command `c`. -/
def ActsBelow (r : Registry α) (c : Command α) (run : Handled α) : Prop :=
  ∃ act above leaf, run.act? = some act ∧ r.Lineage above leaf ∧ act.command = leaf.fullName ∧
    c ∈ above ++ [leaf]

end Handled

/-- Messages are handled one after another, from one world to another. -/
inductive Bot.HandlesEach (bot : Bot α) : World → List (Handled α) → World → Prop
  | nil {w} : HandlesEach bot w [] w
  | next {w between after run runs} : bot.Handles run.message run.own run.act? run.during run.result →
      w.Serves run.log between → HandlesEach bot between runs after → HandlesEach bot w (run :: runs) after

/-- Actions ask a limiter for hits, if they do, at the instant of dispatch. -/
def Handled.Punctual (limiter : Limiter) (run : Handled α) : Prop :=
  ∀ e ∈ run.during, ∀ time, e.chargedAt? limiter = some time → run.time? = some time

namespace Bot

variable {bot : Bot α} {w after : World} {runs : List (Handled α)} {above : List (Command α)} {c : Command α}
variable {limiter : Limiter}

theorem HandlesEach.handles (each : bot.HandlesEach w runs after) :
    ∀ run ∈ runs, bot.Handles run.message run.own run.act? run.during run.result := by
  induction each with
  | nil => exact List.forall_mem_nil _
  | next course _ _ ih => exact List.forall_mem_cons.mpr ⟨course, ih⟩

theorem HandlesEach.serves (each : bot.HandlesEach w runs after) : w.Serves (runs.flatMap Handled.log) after := by
  induction each with
  | nil => exact .nil rfl
  | next _ serves _ ih => exact serves.append ih

theorem Handles.time_of_charged {run : Handled α} (punctual : run.Punctual limiter)
    (course : bot.Handles run.message run.own run.act? run.during run.result) :
    ∀ time ∈ Exchange.times limiter run.log, run.time? = some time := by
  intro time listed
  obtain ⟨e, member, charged⟩ := List.mem_filterMap.mp listed
  rcases List.mem_append.mp member with own | during
  · obtain ⟨user, charge, rfl⟩ := Exchange.chargedAt?_eq_some charged
    obtain ⟨_, clocked, _, _, _, same⟩ := course.levies _ own rfl
    obtain ⟨_, _, rfl⟩ := Request.charge.inj (congrArg Exchange.request same)
    exact clocked
  · exact punctual e during time charged

/-- When messages are dispatched in the order of time and actions are punctual, so are all hits. -/
theorem HandlesEach.inOrder (each : bot.HandlesEach w runs after) (punctual : ∀ run ∈ runs, run.Punctual limiter)
    (inOrder : (runs.filterMap Handled.time?).Pairwise fun s t => s.toInt ≤ t.toInt) :
    Exchange.InOrder limiter (runs.flatMap Handled.log) := by
  induction each with
  | nil => exact .nil
  | @next w between after run runs course _ each ih =>
    obtain ⟨own, others⟩ := List.forall_mem_cons.mp punctual
    have times := course.time_of_charged own
    rw [Exchange.InOrder, Exchange.times, List.flatMap_cons, List.filterMap_append]
    cases clocked : run.time? with
    | none =>
      rw [List.filterMap_cons_none clocked] at inOrder
      have idle : run.log.filterMap (Exchange.chargedAt? limiter) = [] := by
        refine List.eq_nil_iff_forall_not_mem.mpr fun time listed => ?_
        cases clocked.symm.trans (times time listed)
      rw [idle, List.nil_append]
      exact ih others inOrder
    | some now =>
      rw [List.filterMap_cons_some clocked] at inOrder
      obtain ⟨follow, rest⟩ := List.pairwise_cons.mp inOrder
      have same : ∀ time ∈ run.log.filterMap (Exchange.chargedAt? limiter), time = now := by
        intro time listed
        exact Option.some.inj ((times time listed).symm.trans clocked)
      refine List.pairwise_append.mpr ⟨?_, ih others rest, fun s first t later => ?_⟩
      · refine List.pairwise_of_forall_mem_list fun s first t later => ?_
        exact Int.le_of_eq (congrArg Int64.toInt ((same s first).trans (same t later).symm))
      · rw [same s first]
        obtain ⟨e, member, charged⟩ := List.mem_filterMap.mp later
        obtain ⟨run', among, within⟩ := List.mem_flatMap.mp member
        have clocked' := (each.handles run' among).time_of_charged (others run' among) t
          (List.mem_filterMap.mpr ⟨e, within, charged⟩)
        exact follow t (List.mem_filterMap.mpr ⟨run', among, clocked'⟩)

/-- Runs of one user in one interval that get past a limiter are no more than the hits accepted in it. -/
theorem length_le_during {user : String} {start : Int} {span : Nat} {chosen : List (Handled α)}
    (part : chosen.Sublist runs)
    (granted : ∀ run ∈ chosen, ∃ time : Instant, time.within start span = true ∧
      (user, time) ∈ run.log.flatMap (Exchange.granted limiter)) :
    chosen.length ≤ (History.during ((runs.flatMap Handled.log).flatMap (Exchange.granted limiter))
      user start span).length := by
  induction part with
  | slnil => exact Nat.zero_le _
  | cons run _ ih =>
    rw [List.flatMap_cons, List.flatMap_append, History.during_append, List.length_append]
    exact Nat.le_add_left_of_le (ih granted)
  | cons_cons run _ ih =>
    obtain ⟨⟨time, inside, member⟩, others⟩ := List.forall_mem_cons.mp granted
    have counted : time ∈ History.during (run.log.flatMap (Exchange.granted limiter)) user start span := by
      rw [History.during_eq_filter]
      exact List.mem_filter.mpr ⟨History.mem_hitsOf.mpr member, inside⟩
    have some := List.length_pos_of_mem counted
    have rest := ih others
    rw [List.flatMap_cons, List.flatMap_append, History.during_append, List.length_append, List.length_cons]
    omega

/-- What runs below a command has got past its limit. -/
theorem Handles.passes_of_actsBelow (sound : bot.registry.Sound) {run : Handled α}
    (course : bot.Handles run.message run.own run.act? run.during run.result)
    (limited : c.limiter? = some limiter) (acts : run.ActsBelow bot.registry c) : run.Passes c := by
  obtain ⟨act, above, leaf, acted, place, named, member⟩ := acts
  rw [acted] at course
  obtain ⟨above', leaf', time, place', named', hits⟩ := course.hits
  obtain rfl := sound.eq_of_fullName place place' (named.symm.trans named')
  obtain rfl := place.unique sound.distinct sound.formed place'
  obtain ⟨limit, limited', rfl⟩ := Option.map_eq_some_iff.mp limited
  exact ⟨_, _, time, limited, hits c member limit limited'⟩

/-- Of the invocations of one user in one window, no more than the budget get past the limit of a command, and so no
more actions run below it. -/
def Throttles (bot : Bot α) (c : Command α) (window : Window) (runs : List (Handled α)) : Prop :=
  ∀ (user : UserId) (start : Int) (chosen : List (Handled α)), chosen.Sublist runs →
    (∀ run ∈ chosen, run.FallsIn user start window.length) →
    ((∀ run ∈ chosen, run.Passes c) → chosen.length ≤ window.budget) ∧
      ((∀ run ∈ chosen, run.ActsBelow bot.registry c) → chosen.length ≤ window.budget)

theorem HandlesEach.throttles (sound : bot.registry.Sound) (limited : c.limiter? = some limiter)
    (each : bot.HandlesEach w runs after) (fresh : w.limits.lookup limiter = none)
    (inOrder : Exchange.InOrder limiter (runs.flatMap Handled.log)) : bot.Throttles c limiter.window runs := by
  intro user start chosen part within
  have passages (passes : ∀ run ∈ chosen, run.Passes c) : chosen.length ≤ limiter.window.budget := by
    have bounded := each.serves.bounded (.of_fresh fresh) inOrder.timely
    refine Nat.le_trans (length_le_during part fun run member => ?_) (bounded user start)
    obtain ⟨rfl, time, clocked, inside⟩ := within run member
    obtain ⟨asked, caller, now, limited', hit⟩ := passes run member
    cases limited.symm.trans limited'
    obtain ⟨_, timed, _, _, _, same⟩ := each.handles run (part.subset member) |>.levies _ hit rfl
    obtain ⟨_, rfl, rfl⟩ := Request.charge.inj (congrArg Exchange.request same)
    cases clocked.symm.trans timed
    refine ⟨time, inside, List.mem_flatMap.mpr ⟨_, List.mem_append_left _ hit, ?_⟩⟩
    rw [Exchange.granted, if_pos rfl]
    exact List.mem_singleton_self _
  exact ⟨passages, fun acts => passages fun run member =>
    (each.handles run (part.subset member)).passes_of_actsBelow sound limited (acts run member)⟩

end Bot

namespace Throttled

def notice (seconds : Nat) : String := s!"You're doing that too fast. Try again in {seconds} second(s)."

/-- A limit with the notice that tells the seconds. -/
def limitOf (window : Window) : RateLimit where
  window
  notice := ⟨"You're doing that too fast. Try again in \x7b\x7b seconds \x7d\x7d second(s).", fun s => some (notice s)⟩

/-- One call a second. -/
def limit : RateLimit := limitOf ⟨1000, 1⟩

/-- A branch with a limit, and a leaf below it that has none. -/
def git : Draft Unit where
  name := "git"
  documentation := ⟨"Version control", none, []⟩
  rateLimit? := some limit
  subcommands := [{ name := "status", documentation := ⟨"Show the state", none, []⟩, action? := some () }]

def limiter : Limiter := limit.limiter "git"

def bot : Bot Unit where
  registry := (Registry.new.register (.draft git)).1
  config := { owner := "1" }
  perform := fun _ _ _ => pure ()

theorem reachable : bot.registry.Reachable Group.Made := .step .new trivial

def call (content : String) : Message := ⟨"7", "general", "2", false, content⟩

/-- The exchanges before anything is charged. -/
def admitted (time : Instant) : List Exchange :=
  [⟨.chat (.isBot "2"), .ok false⟩, ⟨.chat (.isDirect "general"), .ok false⟩, ⟨.clock, time⟩]

def first : Handled Unit where
  message := call "!git status"
  own := admitted 0 ++ [⟨.charge limiter "2" 0, .accepted⟩]
  act? := some ⟨⟨bot.registry, bot.config, call "!git status", 0⟩, "git status", (), []⟩
  during := []
  result := .ok .handled

def second : Handled Unit where
  message := call "! GIT  nothing"
  own := admitted 10 ++ [⟨.charge limiter "2" 10, .refused 990⟩,
    ⟨.chat (.send "general" (notice 1)), .ok (call (notice 1))⟩, ⟨.deleteLater (call (notice 1)) 5000, ()⟩]
  act? := none
  during := []
  result := .ok .rejected

def start : World := { memory := Memory.new "0" }

/-- Somebody else calls for the leaf. -/
def other : Message := ⟨"8", "general", "3", false, "!git status"⟩

def meddled : Handled Unit where
  message := other
  own := [⟨.chat (.isBot "3"), .ok false⟩, ⟨.chat (.isDirect "general"), .ok false⟩, ⟨.clock, 5⟩,
    ⟨.charge limiter "3" 5, .accepted⟩]
  act? := some ⟨⟨bot.registry, bot.config, other, 5⟩, "git status", (), []⟩
  during := [⟨.charge limiter "9" 1500, .accepted⟩]
  result := .ok .handled

/-- The second call of the first user, when the limiter has forgotten the first one. -/
def passed : Handled Unit where
  message := call "!git status"
  own := admitted 10 ++ [⟨.charge limiter "2" 10, .accepted⟩]
  act? := some ⟨⟨bot.registry, bot.config, call "!git status", 10⟩, "git status", (), []⟩
  during := []
  result := .ok .handled

end Throttled

end ChatCommands
