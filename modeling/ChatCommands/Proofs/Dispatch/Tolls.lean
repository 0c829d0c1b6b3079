import ChatCommands.Proofs.Dispatch.Stages

namespace ChatCommands

variable {α : Type}

namespace Command

variable {tops above : List (Command α)} {b c n : Command α} {tokens rest : List String} {token : String}

/-- A command, and below it those that the tokens name one after another, as far as they name any. -/
def route (c : Command α) : List String → List (Command α)
  | [] => [c]
  | token :: rest => c :: (c.child? token).elim [] fun b => b.route rest

theorem route_of_missing (missing : c.child? token = none) : c.route (token :: rest) = [c] := by
  rw [route, missing, Option.elim_none]

theorem route_of_stop (stop : tokens.head?.bind c.child? = none) : c.route tokens = [c] := by
  cases tokens with
  | nil => rfl
  | cons token rest => exact route_of_missing stop

theorem route_of_child (child : c.child? token = some b) : c.route (token :: rest) = c :: b.route rest := by
  rw [route, child, Option.elim_some]

theorem exists_route (c : Command α) (tokens : List String) : ∃ below, c.route tokens = c :: below := by
  cases tokens with
  | nil => exact ⟨[], rfl⟩
  | cons token rest => exact ⟨_, rfl⟩

theorem route_of_usage {usage : Usage} (leaf : c.usage? = some usage) : c.route tokens = [c] := by
  cases c with
  | branch => cases leaf
  | leaf profile usage action =>
    cases tokens with
    | nil => rfl
    | cons token rest => rfl

theorem Lineage.length_words (sound : ∀ c ∈ tops, c.WellFormed none) (place : Lineage tops above c) :
    (Text.words c.fullName).length = above.length + 1 := by
  rw [place.words_fullName sound, List.length_map, List.length_append, List.length_singleton]

theorem Lineage.of_mem_route (place : Lineage tops above c) {tokens : List String} (member : n ∈ c.route tokens) :
    ∃ below, Lineage tops (above ++ below) n := by
  induction tokens generalizing above c with
  | nil =>
    rw [List.mem_singleton.mp member]
    exact ⟨[], (List.append_nil above).symm ▸ place⟩
  | cons token rest ih =>
    cases child : c.child? token with
    | none =>
      rw [route_of_missing child, List.mem_singleton] at member
      rw [member]
      exact ⟨[], (List.append_nil above).symm ▸ place⟩
    | some b =>
      rw [route_of_child child] at member
      rcases List.mem_cons.mp member with rfl | later
      · exact ⟨[], (List.append_nil above).symm ▸ place⟩
      · obtain ⟨below, reach⟩ := ih (place.child (findLower?_mem child).1) later
        rw [List.append_assoc] at reach
        exact ⟨c :: below, reach⟩

/-- On the way down, full names get longer, so no two are the same. -/
theorem Lineage.nodup_route (sound : ∀ c ∈ tops, c.WellFormed none) (place : Lineage tops above c)
    (tokens : List String) : ((c.route tokens).map fullName).Nodup := by
  induction tokens generalizing above c with
  | nil => exact List.nodup_singleton _
  | cons token rest ih =>
    cases child : c.child? token with
    | none =>
      rw [route_of_missing child]
      exact List.nodup_singleton _
    | some b =>
      have reach := place.child (findLower?_mem child).1
      rw [route_of_child child, List.map_cons, List.nodup_cons]
      refine ⟨fun again => ?_, ih reach⟩
      obtain ⟨n, member, same⟩ := List.mem_map.mp again
      obtain ⟨below, deeper⟩ := reach.of_mem_route member
      have long := deeper.length_words sound
      rw [same, place.length_words sound] at long
      simp only [List.length_append, List.length_singleton] at long
      omega

/-- The limiters of some commands, in the order of the commands. -/
def limiters (cs : List (Command α)) : List Limiter := cs.filterMap limiter?

theorem limiters_append (cs later : List (Command α)) : limiters (cs ++ later) = limiters cs ++ limiters later :=
  List.filterMap_append

/-- No two commands of some trees share a limiter. -/
def Unshared (tops : List (Command α)) : Prop :=
  ∀ above above' c c' limiter, Lineage tops above c → Lineage tops above' c' → c.limiter? = some limiter →
    c'.limiter? = some limiter → c = c'

/-- Limits that are the commands' own are not shared. -/
theorem unshared_of_own (distinct : Distinct tops) (sound : ∀ c ∈ tops, c.WellFormed none)
    (own : ∀ {above c limit}, Lineage tops above c → c.profile.rateLimit? = some limit → limit.share? = none) :
    Unshared tops := by
  intro above above' c c' limiter place place' limited limited'
  obtain ⟨limit, has, rfl⟩ := Option.map_eq_some_iff.mp limited
  obtain ⟨limit', has', same⟩ := Option.map_eq_some_iff.mp limited'
  have keepers := congrArg Limiter.keeper same
  rw [RateLimit.limiter, RateLimit.limiter, own place has, own place' has'] at keepers
  exact Lineage.eq_of_fullName distinct sound place place' (Keeper.command.inj keepers).symm

/-- On the way down no limiter is met twice, unless commands share it. -/
theorem Lineage.nodup_limiters (sound : ∀ c ∈ tops, c.WellFormed none) (unshared : Unshared tops)
    (place : Lineage tops above c) (tokens : List String) : (limiters (c.route tokens)).Nodup := by
  have apart : (c.route tokens).Nodup := (place.nodup_route sound tokens).of_map fullName
  rw [limiters, List.Nodup, List.pairwise_filterMap]
  refine List.Pairwise.imp_of_mem (fun {n m} first later ne limiter limited other limited' same => ?_) apart
  obtain ⟨_, reach⟩ := place.of_mem_route first
  obtain ⟨_, reach'⟩ := place.of_mem_route later
  exact ne (unshared _ _ n m limiter reach reach' limited (same ▸ limited'))

end Command

/-- The limiter that is charged in an exchange, if one is. -/
def Exchange.charged? : Exchange → Option Limiter
  | ⟨.charge limiter _ _, _⟩ => some limiter
  | _ => none

theorem Exchange.charged?_eq_none {e : Exchange} (free : e.charges = false) : e.charged? = none := by
  unfold charged?
  split
  · cases free
  · rfl

theorem Exchange.filterMap_charged? (log : List Exchange) :
    (log.filter charges).filterMap charged? = log.filterMap charged? := by
  induction log with
  | nil => rfl
  | cons e rest ih =>
    cases charged : e.charges with
    | true => rw [List.filter_cons_of_pos charged, List.filterMap_cons, List.filterMap_cons, ih]
    | false =>
      have none := charged?_eq_none charged
      rw [List.filter_cons_of_neg (Bool.eq_false_iff.mp charged), List.filterMap_cons, none, ih]

namespace Invocation

variable {inv : Invocation α} {c : Command α} {tokens : List String} {log : List Exchange}

/-- The exchange in which a command is charged with this outcome. A command without a limit has none. -/
def toll (inv : Invocation α) (c : Command α) (charge : Charge) : List Exchange :=
  c.profile.rateLimit?.toList.map fun limit => inv.hit c limit charge

/-- The commands `visited` and then `last` are the first ones on the route, and charged in that order, each
once and nothing besides. All accept the hit but perhaps the last, and there the way down ends for that
reason or because the route does. -/
structure Tolls (inv : Invocation α) (c : Command α) (tokens : List String) (log : List Exchange)
    (visited : List (Command α)) (last : Command α) (charge : Charge) : Prop where
  route : visited ++ [last] <+: c.route tokens
  charged : log.filter Exchange.charges = visited.flatMap (inv.toll · .accepted) ++ inv.toll last charge
  whole : charge = .accepted → c.route tokens = visited ++ [last]
  stopped : charge ≠ .accepted → last.profile.rateLimit?.isSome = true

theorem charged?_toll (inv : Invocation α) (c : Command α) (charge : Charge) :
    (inv.toll c charge).filterMap Exchange.charged? = Command.limiters [c] := by
  rw [toll, Command.limiters, List.filterMap_cons, Command.limiter?, Profile.limiter?]
  cases c.profile.rateLimit? <;> rfl

theorem Tolls.charged? {visited : List (Command α)} {last : Command α} {charge : Charge}
    (tolls : inv.Tolls c tokens log visited last charge) :
    log.filterMap Exchange.charged? = Command.limiters (visited ++ [last]) := by
  have each : ∀ cs : List (Command α), (cs.flatMap (inv.toll · .accepted)).filterMap Exchange.charged? =
      Command.limiters cs := by
    intro cs
    induction cs with
    | nil => rfl
    | cons c rest ih =>
      rw [List.flatMap_cons, List.filterMap_append, ih, charged?_toll]
      exact (Command.limiters_append [c] rest).symm
  rw [← Exchange.filterMap_charged?, tolls.charged, List.filterMap_append, each, charged?_toll,
    Command.limiters_append]

/-- No limit is charged twice on the way down. -/
theorem Tolls.nodup_charged? {tops above visited : List (Command α)} {last : Command α} {charge : Charge}
    (tolls : inv.Tolls c tokens log visited last charge) (sound : ∀ c ∈ tops, c.WellFormed none)
    (unshared : Command.Unshared tops) (place : Command.Lineage tops above c) :
    (log.filterMap Exchange.charged?).Nodup := by
  have part : (visited ++ [last]).Sublist (c.route tokens) := tolls.route.sublist
  rw [tolls.charged?]
  exact (place.nodup_limiters sound unshared tokens).sublist (part.filterMap _)

theorem Charges.toll {result : Except CommandError Bool} (course : inv.Charges c log result) :
    ∃ charge, log.filter Exchange.charges = inv.toll c charge ∧ (charge = .accepted ↔ result = .ok true) ∧
      (charge ≠ .accepted → c.profile.rateLimit?.isSome = true) := by
  cases course with
  | unlimited free =>
    refine ⟨.accepted, ?_, iff_of_true rfl rfl, fun refused => absurd rfl refused⟩
    rw [Invocation.toll, free]
    rfl
  | accepted limited =>
    refine ⟨.accepted, ?_, iff_of_true rfl rfl, fun refused => absurd rfl refused⟩
    rw [Invocation.toll, limited]
    rfl
  | @unrendered limit wait limited | @undelivered limit wait _ _ limited | @throttled limit wait _ _ limited =>
    refine ⟨.refused wait, ?_, iff_of_false nofun nofun, fun _ => by rw [limited]; rfl⟩
    rw [Invocation.toll, limited]
    rfl

variable {result : Except CommandError (Descent α)}

theorem Charges.stops {answer : Except CommandError Bool} (course : inv.Charges c log answer)
    (barred : answer ≠ .ok true) : ∃ charge, charge ≠ .accepted ∧ inv.Tolls c tokens log [] c charge := by
  obtain ⟨charge, charged, passed, limited⟩ := course.toll
  have refused : charge ≠ .accepted := fun accepted => barred (passed.mp accepted)
  obtain ⟨below, route⟩ := c.exists_route tokens
  exact ⟨charge, refused, ⟨below, route.symm⟩, charged, fun accepted => absurd accepted refused, limited⟩

theorem Charges.ends {later : List Exchange} (course : inv.Charges c log (.ok true))
    (free : later.any Exchange.charges = false) (route : c.route tokens = [c]) :
    inv.Tolls c tokens (log ++ later) [] c .accepted := by
  obtain ⟨charge, charged, passed, _⟩ := course.toll
  obtain rfl := passed.mpr rfl
  refine ⟨⟨[], ?_⟩, ?_, fun _ => route, fun refused => absurd rfl refused⟩
  · rw [route]
    rfl
  · have none : later.filter Exchange.charges = [] := List.filter_eq_nil_iff.mpr (List.any_eq_false.mp free)
    rw [List.filter_append, charged, none, List.append_nil]
    rfl

/-- A command that is passed on the way has accepted a hit before all that comes after it. -/
theorem Tolls.cons {b last : Command α} {token : String} {rest : List String} {first later : List Exchange}
    {visited : List (Command α)} {charge : Charge} (tolls : inv.Tolls b rest later visited last charge)
    (course : inv.Charges c first (.ok true)) (child : c.child? token = some b) :
    inv.Tolls c (token :: rest) (first ++ later) (c :: visited) last charge := by
  obtain ⟨_, charged, passed, _⟩ := course.toll
  obtain rfl := passed.mpr rfl
  refine ⟨?_, ?_, fun whole => ?_, tolls.stopped⟩
  · rw [Command.route_of_child child, List.cons_append, List.cons_prefix_cons]
    exact ⟨rfl, tolls.route⟩
  · rw [List.filter_append, charged, tolls.charged, List.flatMap_cons, List.append_assoc]
  · rw [Command.route_of_child child, tolls.whole whole]
    rfl

/-- The way down charges the commands on the route, from the top down. If one refuses, it leads to no action. -/
theorem Descends.tolls (course : inv.Descends c tokens log result) :
    ∃ visited last charge, inv.Tolls c tokens log visited last charge ∧
      (charge ≠ .accepted → ∀ command action values, result ≠ .ok (.arrived command action values)) := by
  induction course with
  | failed charge | throttled charge =>
    obtain ⟨charge, _, tolls⟩ := charge.stops nofun
    exact ⟨[], _, charge, tolls, fun _ _ _ _ => nofun⟩
  | @arrived profile usage action tokens log values charge =>
    have route : (Command.leaf profile usage action).route tokens = [.leaf profile usage action] :=
      Command.route_of_usage rfl
    have silent : ([] : List Exchange).any Exchange.charges = false := rfl
    have tolls := charge.ends silent route
    rw [List.append_nil] at tolls
    exact ⟨[], _, .accepted, tolls, fun refused => absurd rfl refused⟩
  | mismatched charge leaf _ told =>
    refine ⟨[], _, .accepted, charge.ends told.prompt.1 ?_, fun refused => absurd rfl refused⟩
    exact Command.route_of_usage leaf
  | stranded charge _ stop told =>
    refine ⟨[], _, .accepted, charge.ends told.prompt.1 ?_, fun refused => absurd rfl refused⟩
    exact Command.route_of_stop stop
  | passed charge child _ ih =>
    obtain ⟨visited, last, outcome, tolls, arrives⟩ := ih
    exact ⟨_ :: visited, last, outcome, tolls.cons charge child, arrives⟩

end Invocation

namespace Bot

open Talk

variable {bot : Bot α} {inv : Invocation α} {c : Command α} {tokens : List String} {log : List Exchange}
variable {result : Except CommandError Bool}

/-- What running a command can come to: the exchanges on the way down, those while the action runs, if one
does, and the result. -/
inductive Executes (bot : Bot α) (inv : Invocation α) (c : Command α) (tokens : List String) :
    List Exchange → List Exchange → Except CommandError Bool → Prop
  | lost {own e} : inv.Descends c tokens own (.error e) → Executes bot inv c tokens own [] (.error e)
  | refused {own} : inv.Descends c tokens own (.ok .refused) → Executes bot inv c tokens own [] (.ok false)
  | acted {own during command action values} : inv.Descends c tokens own (.ok (.arrived command action values)) →
      (bot.perform action inv values).run.Held during (.ok ()) → Executes bot inv c tokens own during (.ok true)
  | actFailed {own during command action values cause} :
      inv.Descends c tokens own (.ok (.arrived command action values)) →
      (bot.perform action inv values).run.Held during (.error cause) →
      Executes bot inv c tokens own during (.error (.action command cause))

theorem executes_of_held (run : (bot.execute inv c tokens).run.Held log result) :
    ∃ own during, log = own ++ during ∧ bot.Executes inv c tokens own during result := by
  unfold execute at run
  rcases held_bind_iff.mp run with ⟨e, way, rfl⟩ | ⟨own, during, descent, rfl, way, next⟩
  · exact ⟨log, [], (List.append_nil log).symm, .lost (Invocation.descends_of_held way)⟩
  cases descent with
  | refused =>
    obtain ⟨rfl, rfl⟩ := held_pure_iff.mp next
    exact ⟨own, [], rfl, .refused (Invocation.descends_of_held way)⟩
  | arrived command action values =>
    refine ⟨own, during, rfl, ?_⟩
    rcases held_bind_iff.mp next with ⟨e, acted, rfl⟩ | ⟨_, _, _, rfl, acted, last⟩
    · obtain ⟨outcome, performed, same⟩ := held_orElseAs_iff.mp acted
      cases outcome with
      | ok => cases same
      | error cause =>
        cases same
        exact .actFailed (Invocation.descends_of_held way) performed
    · obtain ⟨outcome, performed, same⟩ := held_orElseAs_iff.mp acted
      obtain ⟨rfl, rfl⟩ := held_pure_iff.mp last
      rw [List.append_nil]
      cases outcome with
      | ok => exact .acted (Invocation.descends_of_held way) performed
      | error => cases same

/-- Running a command charges the commands on the route, from the top down. If one refuses, no action runs. -/
theorem Executes.tolls {own during : List Exchange} (course : bot.Executes inv c tokens own during result) :
    ∃ visited last charge, inv.Tolls c tokens own visited last charge ∧
      (charge ≠ .accepted → during = [] ∧ result ≠ .ok true) := by
  cases course with
  | lost way | refused way =>
    obtain ⟨visited, last, charge, tolls, _⟩ := way.tolls
    exact ⟨visited, last, charge, tolls, fun _ => ⟨rfl, nofun⟩⟩
  | acted way | actFailed way =>
    obtain ⟨visited, last, charge, tolls, arrives⟩ := way.tolls
    exact ⟨visited, last, charge, tolls, fun refused => absurd rfl (arrives refused _ _ _)⟩

end Bot

end ChatCommands
