import ChatCommands.Proofs.Dispatch.Handling
import ChatCommands.Proofs.Registry.Resolve

namespace ChatCommands

variable {α : Type}

/-- The instant of dispatch, where an exchange tells it. -/
def Exchange.clock? : Exchange → Option Instant
  | ⟨.clock, time⟩ => some time
  | _ => none

/-- The limiters of the commands of the registry. -/
def Registry.Limits (r : Registry α) (limiter : Limiter) : Prop :=
  ∃ above c, r.Lineage above c ∧ c.limiter? = some limiter

/-- Charges a user, for a command of the registry. -/
def Registry.Levies (r : Registry α) (user : UserId) (time : Instant) (e : Exchange) : Prop :=
  ∃ limiter charge, r.Limits limiter ∧ e = ⟨.charge limiter user time, charge⟩

theorem Command.limiter?_of_limit {c : Command α} {limit : RateLimit} (limited : c.profile.rateLimit? = some limit) :
    c.limiter? = some (limit.limiter c.fullName) := by
  rw [limiter?, Profile.limiter?, limited]
  rfl

namespace Invocation

variable {inv : Invocation α} {r : Registry α} {above : List (Command α)} {c : Command α} {log : List Exchange}

theorem Charges.levies {result : Except CommandError Bool} (course : inv.Charges c log result)
    (place : r.Lineage above c) : ∀ e ∈ log, e.charges = true → r.Levies inv.author inv.time e := by
  have own {limit charge} (limited : c.profile.rateLimit? = some limit) :
      r.Levies inv.author inv.time (inv.hit c limit charge) :=
    ⟨_, charge, ⟨above, c, place, Command.limiter?_of_limit limited⟩, rfl⟩
  cases course with
  | unlimited => exact List.forall_mem_nil _
  | accepted limited => exact List.forall_mem_singleton.mpr fun _ => own limited
  | unrendered limited => exact List.forall_mem_singleton.mpr fun _ => own limited
  | undelivered limited =>
    exact List.forall_mem_cons.mpr ⟨fun _ => own limited, List.forall_mem_singleton.mpr nofun⟩
  | throttled limited =>
    refine List.forall_mem_cons.mpr ⟨fun _ => own limited, List.forall_mem_cons.mpr ⟨nofun, ?_⟩⟩
    exact List.forall_mem_singleton.mpr nofun

/-- On the way down from a command, commands are charged by the invoker at the instant of dispatch. -/
theorem Descends.levies {tokens : List String} {result : Except CommandError (Descent α)}
    (course : inv.Descends c tokens log result) (place : r.Lineage above c) :
    ∀ e ∈ log, e.charges = true → r.Levies inv.author inv.time e := by
  induction course generalizing above with
  | failed charge | throttled charge | arrived charge => exact charge.levies place
  | mismatched charge _ _ told | stranded charge _ _ told =>
    refine List.forall_mem_append.mpr ⟨charge.levies place, fun e member charges => ?_⟩
    exact absurd charges (List.any_eq_false.mp told.prompt.1 e member)
  | passed charge child _ ih =>
    exact List.forall_mem_append.mpr ⟨charge.levies place, ih (place.child (Command.findLower?_mem child).1)⟩

theorem Charges.hit_mem (course : inv.Charges c log (.ok true)) {limit : RateLimit}
    (limited : c.profile.rateLimit? = some limit) : inv.hit c limit .accepted ∈ log := by
  cases course with
  | unlimited free => cases free.symm.trans limited
  | accepted limited' =>
    cases limited'.symm.trans limited
    exact List.mem_singleton_self _

/-- Whoever arrives at a leaf has got past the limits of all commands above it, from where the way began. -/
theorem Descends.hits {tokens : List String} {result : Except CommandError (Descent α)}
    (course : inv.Descends c tokens log result) (place : r.Lineage above c) {command : String} {action : α}
    {values : List String} (arrival : result = .ok (.arrived command action values)) :
    ∃ below leaf, r.Lineage (above ++ below) leaf ∧ command = leaf.fullName ∧
      ∀ d ∈ below ++ [leaf], ∀ limit, d.profile.rateLimit? = some limit → inv.hit d limit .accepted ∈ log := by
  induction course generalizing above with
  | failed | throttled => cases arrival
  | arrived charge =>
    cases arrival
    refine ⟨[], _, (List.append_nil above).symm ▸ place, rfl, List.forall_mem_singleton.mpr fun limit limited => ?_⟩
    exact charge.hit_mem limited
  | mismatched _ _ _ told | stranded _ _ _ told =>
    subst arrival
    cases told.yields.1
  | @passed c b _ _ first later _ charge child _ ih =>
    obtain ⟨below, leaf, reach, named, hits⟩ := ih (place.child (Command.findLower?_mem child).1) arrival
    rw [List.append_assoc] at reach
    refine ⟨c :: below, leaf, reach, named, List.forall_mem_cons.mpr ⟨fun limit limited => ?_, ?_⟩⟩
    · exact List.mem_append_left later (charge.hit_mem limited)
    · exact fun d member limit limited => List.mem_append_right first (hits d member limit limited)

end Invocation

namespace Bot

variable {bot : Bot α} {message : Message} {own during : List Exchange} {act? : Option (Act α)}
variable {result : Except CommandError Outcome}

theorem Receives.clocked {log : List Exchange} {inv : Invocation α} {c : Command α} {tokens : List String}
    (course : bot.Receives message log (.ok (.admitted inv c tokens))) :
    log.findSome? Exchange.clock? = some inv.time ∧ inv.author = message.author ∧ bot.registry.Lineage [] c := by
  obtain ⟨_, _, ⟨_, _, _, _, top⟩, same⟩ := course.admits
  refine ⟨?_, congrArg Message.author same, .top (Command.findLower?_mem top).1⟩
  cases course with
  | missing _ _ _ told => cases told.yields.1
  | found _ _ _ checks =>
    cases checks with
    | foreign _ told | direct _ _ told => cases told.yields.1
    | indirect | anywhere => rfl

/-- All that handling a message charges are limits of commands, at the instant of its dispatch. -/
theorem Handles.levies (course : bot.Handles message own act? during result) :
    ∀ e ∈ own, e.charges = true →
      ∃ time, own.findSome? Exchange.clock? = some time ∧ bot.registry.Levies message.author time e := by
  have dispatched : ∃ outcome, (bot.dispatch message).run.Held own outcome := by
    cases course with
    | failed run | settled run | acted run | actFailed run => exact ⟨_, run⟩
  obtain ⟨_, run⟩ := dispatched
  have early {log outcome} (received : bot.Receives message log outcome) : ∀ e ∈ log, ¬ e.charges = true :=
    List.any_eq_false.mp received.prompt.1
  cases dispatches_of_held run with
  | failed received | settled received => exact fun e member charges => absurd charges (early received e member)
  | lost admitted way | refused admitted way | arrived admitted way =>
    obtain ⟨clocked, same, place⟩ := admitted.clocked
    refine List.forall_mem_append.mpr ⟨fun e member charges => absurd charges (early admitted e member), ?_⟩
    intro e member charges
    rw [List.findSome?_append, clocked]
    exact ⟨_, rfl, same ▸ way.levies place e member charges⟩

/-- An action runs only after the limits of its leaf, and of all commands above that, have accepted a hit. -/
theorem Handles.hits {act : Act α} (course : bot.Handles message own (some act) during result) :
    ∃ above leaf time, bot.registry.Lineage above leaf ∧ act.command = leaf.fullName ∧
      ∀ d ∈ above ++ [leaf], ∀ limit, d.profile.rateLimit? = some limit →
        ⟨.charge (limit.limiter d.fullName) message.author time, .accepted⟩ ∈ own := by
  have dispatched : (bot.dispatch message).run.Held own
      (.ok (.run act.inv act.command act.action act.values)) := by
    cases course with
    | acted run | actFailed run => exact run
  generalize verdict : (Except.ok (Verdict.run act.inv act.command act.action act.values) :
    Except CommandError (Verdict α)) = outcome at dispatched
  cases dispatches_of_held dispatched with
  | failed | settled | lost | refused => cases verdict
  | @arrived inv c tokens first later command action values admitted way =>
    cases verdict
    obtain ⟨_, same, place⟩ := admitted.clocked
    obtain ⟨below, leaf, reach, named, hits⟩ := way.hits place rfl
    refine ⟨below, leaf, act.inv.time, reach, named, fun d member limit limited => ?_⟩
    have hit := hits d member limit limited
    rw [Invocation.hit, same] at hit
    exact List.mem_append_right first hit

end Bot

end ChatCommands
