import ChatCommands.Dispatch
import ChatCommands.Proofs.Chat.Run
import ChatCommands.Proofs.Dispatch.Ending

namespace ChatCommands.Invocation

open Talk

variable {α : Type} {inv : Invocation α}

/-- How the way down a tree shows its ending: by what it yields, and by what it sends. -/
def Tells (inv : Invocation α) (sent : List (ChannelId × String)) (descent : Descent α) : Ending α → Prop
  | .run c values => sent = [] ∧ ∃ profile usage action, c = .leaf profile usage action ∧
      descent = .arrived c.fullName action values
  | .leafUsage c => c.usage?.isSome = true ∧ descent = .refused ∧
      sent = [(inv.channel, Help.leafUsage inv.config.lead c)]
  | .branchUsage c => c.usage? = none ∧ descent = .refused ∧
      sent = [(inv.channel, Help.branchUsage inv.config.lead c)]
  | .notFound => False

theorem clears_reply {content : String} :
    (inv.reply content).Clears fun sent _ => sent = [(inv.channel, content)] := clears_send

theorem clears_charge {c : Command α} : (inv.charge c).Clears fun sent passed => sent = [] ∧ passed = true := by
  unfold charge
  cases c.profile.rateLimit? with
  | none => exact .pure ⟨rfl, rfl⟩
  | some limit =>
    refine Talk.clears_charge.bind fun paid => ?_
    obtain ⟨rfl, rfl⟩ := paid
    exact .pure ⟨rfl, rfl⟩

theorem clears_refuseAtBranch {c : Command α} (branch : c.usage? = none) :
    (descend.refuseAtBranch inv c).Clears fun sent descent => inv.Tells sent descent (.branchUsage c) := by
  unfold descend.refuseAtBranch
  refine clears_reply.bind fun told => ?_
  subst told
  exact .pure ⟨branch, rfl, rfl⟩

theorem clears_leaf {profile : Profile} {usage : Usage} {action : α} {tokens : List String} :
    (inv.descend (.leaf profile usage action) tokens).Clears fun sent descent =>
      inv.Tells sent descent ((Command.leaf profile usage action).ending tokens) := by
  unfold descend
  refine clears_charge.bind fun paid => ?_
  obtain ⟨rfl, rfl⟩ := paid
  simp only [Bool.not_true, Bool.false_eq_true, if_false]
  cases outcome : usage.matchTokens tokens with
  | ok values =>
    rw [Command.ending_of_match rfl outcome]
    exact .pure ⟨rfl, profile, usage, action, rfl, rfl⟩
  | error mismatch =>
    rw [Command.ending_of_mismatch rfl outcome]
    refine clears_reply.bind fun told => ?_
    subst told
    exact .pure ⟨rfl, rfl, rfl⟩

/-- Unless something stands in the way, the way down ends as the tokens tell. -/
theorem clears_descend {c : Command α} {tokens : List String} :
    (inv.descend c tokens).Clears fun sent descent => inv.Tells sent descent (c.endingBelow tokens) := by
  induction tokens generalizing c with
  | nil =>
    cases c with
    | leaf profile usage action => exact clears_leaf
    | branch profile children =>
      unfold descend
      refine clears_charge.bind fun paid => ?_
      obtain ⟨rfl, rfl⟩ := paid
      exact clears_refuseAtBranch rfl
  | cons token rest ih =>
    cases c with
    | leaf profile usage action => exact clears_leaf
    | branch profile children =>
      unfold descend
      refine clears_charge.bind fun paid => ?_
      obtain ⟨rfl, rfl⟩ := paid
      simp only [Bool.not_true, Bool.false_eq_true, if_false, Command.endingBelow]
      cases child : (Command.branch profile children).child? token with
      | some b => exact ih
      | none => exact clears_refuseAtBranch rfl

end ChatCommands.Invocation
