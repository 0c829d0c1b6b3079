import ChatCommands.Proofs.Registry.Lookup

namespace ChatCommands

/-- How a message that calls for a command can come to its end: the action of a leaf is run on values, the
usage of a leaf or of a branch is explained, or there is no such command. -/
inductive Ending (α : Type) where
  | run (leaf : Command α) (values : List String)
  | leafUsage (leaf : Command α)
  | branchUsage (branch : Command α)
  | notFound

variable {α : Type}

/-- The endings to which `tokens` lead, where `found? k` is the command that the first `k` of them name. -/
def Ending.Fits (found? : Nat → Option (Command α)) (tokens : List String) : Ending α → Prop
  | run c values => ∃ usage, c.usage? = some usage ∧
      ∃ k ≤ tokens.length, found? k = some c ∧ usage.matchTokens (tokens.drop k) = .ok values
  | leafUsage c => ∃ usage mismatch, c.usage? = some usage ∧
      ∃ k ≤ tokens.length, found? k = some c ∧ usage.matchTokens (tokens.drop k) = .error mismatch
  | branchUsage c => c.usage? = none ∧
      ∃ k ≤ tokens.length, found? k = some c ∧ (k = tokens.length ∨ found? (k + 1) = none)
  | notFound => found? 0 = none

/-- The endings of a list of tokens, told by resolving the paths that are made of its first tokens. -/
def Registry.Ends (r : Registry α) (tokens : List String) : Ending α → Prop :=
  Ending.Fits (fun k => r.resolve? (" ".intercalate (tokens.take (k + 1)))) tokens.tail

namespace Command

/-- The ending when the way down stops at a command, with these tokens left. -/
def ending (c : Command α) (tokens : List String) : Ending α :=
  match c.usage? with
  | none => .branchUsage c
  | some usage =>
    match usage.matchTokens tokens with
    | .ok values => .run c values
    | .error _ => .leafUsage c

theorem ending_of_branch {c : Command α} {tokens : List String} (branch : c.usage? = none) :
    c.ending tokens = .branchUsage c := by
  simp only [ending, branch]

theorem ending_of_match {c : Command α} {tokens values : List String} {usage : Usage}
    (leaf : c.usage? = some usage) (outcome : usage.matchTokens tokens = .ok values) :
    c.ending tokens = .run c values := by
  simp only [ending, leaf, outcome]

theorem ending_of_mismatch {c : Command α} {tokens : List String} {usage : Usage} {mismatch : Mismatch}
    (leaf : c.usage? = some usage) (outcome : usage.matchTokens tokens = .error mismatch) :
    c.ending tokens = .leafUsage c := by
  simp only [ending, leaf, outcome]

/-- The ending when the way down begins at a command. -/
def endingBelow (c : Command α) : List String → Ending α
  | [] => c.ending []
  | token :: rest =>
    match c.child? token with
    | some b => b.endingBelow rest
    | none => c.ending (token :: rest)

theorem usage?_of_child? {c b : Command α} {token : String} (found : c.child? token = some b) :
    c.usage? = none := by
  cases c with
  | branch => rfl
  | leaf => cases found

section

variable {c d : Command α} {tokens values : List String}

theorem endingBelow_of_stop (stop : tokens.head?.bind c.child? = none) :
    c.endingBelow tokens = c.ending tokens := by
  cases tokens with
  | nil => rfl
  | cons token rest =>
    have child : c.child? token = none := stop
    rw [endingBelow, child]

theorem endingBelow_of_usage {usage : Usage} (leaf : c.usage? = some usage) :
    c.endingBelow tokens = c.ending tokens := by
  apply endingBelow_of_stop
  cases c with
  | branch => cases leaf
  | leaf => cases tokens <;> rfl

theorem endingBelow_of_child {b : Command α} {token : String} {rest : List String}
    (child : c.child? token = some b) : c.endingBelow (token :: rest) = b.endingBelow rest := by
  rw [endingBelow, child]

theorem eq_of_ending (ends : c.ending tokens = .run d values) : d = c := by
  unfold ending at ends
  split at ends
  · cases ends
  · split at ends <;> cases ends
    rfl

/-- Whatever runs on the way down from a command stands below it, or is the command itself. -/
theorem lineage_of_endingBelow {tops above : List (Command α)} (reach : Lineage tops above c)
    (ends : c.endingBelow tokens = .run d values) :
    ∃ below, Lineage tops (above ++ below) d ∧ (below ++ [d]).head? = some c := by
  induction tokens generalizing c above with
  | nil =>
    rw [eq_of_ending ends]
    exact ⟨[], by rwa [List.append_nil], rfl⟩
  | cons token rest ih =>
    cases child : c.child? token with
    | none =>
      have stop : (token :: rest).head?.bind c.child? = none := child
      rw [endingBelow_of_stop stop] at ends
      rw [eq_of_ending ends]
      exact ⟨[], by rwa [List.append_nil], rfl⟩
    | some b =>
      rw [endingBelow_of_child child] at ends
      obtain ⟨below, place, _⟩ := ih (.child reach (findLower?_mem child).1) ends
      rw [List.append_assoc] at place
      exact ⟨[c] ++ below, place, rfl⟩

end

end Command

def Registry.ending (r : Registry α) : List String → Ending α
  | [] => .notFound
  | token :: rest =>
    match r.command? token with
    | some c => c.endingBelow rest
    | none => .notFound

theorem Registry.ending_of_found {r : Registry α} {token : String} {rest : List String} {c : Command α}
    (top : r.command? token = some c) : r.ending (token :: rest) = c.endingBelow rest := by
  simp only [ending, top]

theorem Registry.ending_of_missing {r : Registry α} {token : String} {rest : List String}
    (top : r.command? token = none) : r.ending (token :: rest) = .notFound := by
  simp only [ending, top]

namespace Ending

variable {found? : Nat → Option (Command α)} {tokens : List String} {e : Ending α}

theorem fits_of_stop {c : Command α} (here : found? 0 = some c)
    (stop : ∀ k, k + 1 ≤ tokens.length → found? (k + 1) = none) : e.Fits found? tokens ↔ e = c.ending tokens := by
  have only : ∀ {k d}, k ≤ tokens.length → found? k = some d → k = 0 ∧ c = d := by
    intro k d bound found
    cases k with
    | zero => exact ⟨rfl, Option.some.inj (here.symm.trans found)⟩
    | succ k =>
      rw [stop k bound] at found
      cases found
  constructor
  · intro fits
    cases e with
    | run d values =>
      obtain ⟨usage, leaf, k, bound, found, outcome⟩ := fits
      obtain ⟨rfl, rfl⟩ := only bound found
      exact (Command.ending_of_match leaf outcome).symm
    | leafUsage d =>
      obtain ⟨usage, mismatch, leaf, k, bound, found, outcome⟩ := fits
      obtain ⟨rfl, rfl⟩ := only bound found
      exact (Command.ending_of_mismatch leaf outcome).symm
    | branchUsage d =>
      obtain ⟨branch, k, bound, found, _⟩ := fits
      obtain ⟨rfl, rfl⟩ := only bound found
      exact (Command.ending_of_branch branch).symm
    | notFound => exact absurd (here.symm.trans fits) (Option.some_ne_none c)
  · rintro rfl
    cases kind : c.usage? with
    | none =>
      have last : 0 = tokens.length ∨ found? (0 + 1) = none := by
        rcases Nat.eq_zero_or_pos tokens.length with empty | present
        · exact .inl empty.symm
        · exact .inr (stop 0 present)
      rw [Command.ending_of_branch kind]
      exact ⟨kind, 0, Nat.zero_le _, here, last⟩
    | some usage =>
      cases outcome : usage.matchTokens tokens with
      | ok values =>
        rw [Command.ending_of_match kind outcome]
        exact ⟨usage, kind, 0, Nat.zero_le _, here, outcome⟩
      | error mismatch =>
        rw [Command.ending_of_mismatch kind outcome]
        exact ⟨usage, mismatch, kind, 0, Nat.zero_le _, here, outcome⟩

theorem fits_of_step {c b : Command α} {token : String} (here : found? 0 = some c) (branch : c.usage? = none)
    (next : found? 1 = some b) : e.Fits found? (token :: tokens) ↔ e.Fits (fun k => found? (k + 1)) tokens := by
  -- A leaf is not found at once, so one token is used up whenever one is found.
  have leaf : ∀ {d : Command α} {usage : Usage} {outcome : Except Mismatch (List String)}, d.usage? = some usage →
      ((∃ k ≤ (token :: tokens).length, found? k = some d ∧
        usage.matchTokens ((token :: tokens).drop k) = outcome) ↔
      ∃ k ≤ tokens.length, found? (k + 1) = some d ∧ usage.matchTokens (tokens.drop k) = outcome) := by
    intro d usage outcome kind
    constructor
    · rintro ⟨k, bound, found, outcome⟩
      cases k with
      | zero =>
        cases here.symm.trans found
        rw [branch] at kind
        cases kind
      | succ k => exact ⟨k, Nat.le_of_succ_le_succ bound, found, outcome⟩
    · rintro ⟨k, bound, found, outcome⟩
      exact ⟨k + 1, Nat.succ_le_succ bound, found, outcome⟩
  cases e with
  | run d values => exact exists_congr fun usage => and_congr_right leaf
  | leafUsage d => exact exists_congr fun usage => exists_congr fun mismatch => and_congr_right leaf
  | branchUsage d =>
    refine and_congr_right fun _ => ⟨?_, ?_⟩
    · rintro ⟨k, bound, found, last⟩
      cases k with
      | zero =>
        rcases last with empty | stray
        · cases empty
        · cases next.symm.trans stray
      | succ k => exact ⟨k, Nat.le_of_succ_le_succ bound, found, last.imp_left Nat.succ.inj⟩
    · rintro ⟨k, bound, found, last⟩
      exact ⟨k + 1, Nat.succ_le_succ bound, found, last.imp_left (congrArg Nat.succ)⟩
  | notFound =>
    constructor
    · intro missing
      cases here.symm.trans missing
    · intro missing
      cases next.symm.trans missing

end Ending

theorem Command.fits_iff {c : Command α} {tokens : List String} {e : Ending α} :
    e.Fits (fun k => c.descend? (tokens.take k)) tokens ↔ e = c.endingBelow tokens := by
  induction tokens generalizing c with
  | nil => exact Ending.fits_of_stop rfl fun k bound => absurd bound (Nat.not_succ_le_zero k)
  | cons token rest ih =>
    rw [endingBelow]
    cases child : c.child? token with
    | none =>
      refine Ending.fits_of_stop rfl fun k _ => ?_
      simp [descend?, child]
    | some b =>
      have next : c.descend? ((token :: rest).take 1) = some b := by simp [descend?, child]
      rw [Ending.fits_of_step rfl (usage?_of_child? child) next]
      simp only [List.take_succ_cons, descend?, child, Option.bind_eq_bind, Option.bind_some]
      exact ih

theorem Command.endingBelow_append {c b : Command α} {before later : List String}
    (found : c.descend? before = some b) : c.endingBelow (before ++ later) = b.endingBelow later := by
  induction before generalizing c with
  | nil =>
    cases found
    rfl
  | cons token rest ih =>
    obtain ⟨child, here, below⟩ := Option.bind_eq_some_iff.mp found
    rw [List.cons_append, endingBelow, here]
    exact ih below

namespace Registry

variable {r : Registry α} {tokens : List String}

theorem resolve?_intercalate (each : ∀ t ∈ tokens, Text.IsWord t) (k : Nat) :
    r.resolve? (" ".intercalate (tokens.take k)) = r.follow? (tokens.take k) := by
  rw [resolve?, Text.words_intercalate fun t member => each t (List.mem_of_mem_take member)]

/-- Resolving paths tells one ending of every list of tokens, the one that is told on the way down. -/
theorem ends_iff (each : ∀ t ∈ tokens, Text.IsWord t) (present : tokens ≠ []) {e : Ending α} :
    r.Ends tokens e ↔ e = r.ending tokens := by
  have paths : (fun k => r.resolve? (" ".intercalate (tokens.take (k + 1)))) =
      fun k => r.follow? (tokens.take (k + 1)) := funext fun k => resolve?_intercalate each (k + 1)
  rw [Ends, paths]
  cases tokens with
  | nil => exact absurd rfl present
  | cons token rest =>
    simp only [List.tail_cons, List.take_succ_cons, follow?]
    cases top : r.command? token with
    | some c =>
      rw [ending_of_found top]
      exact Command.fits_iff
    | none =>
      rw [ending_of_missing top]
      cases e <;> simp [Ending.Fits]

/-- The words of a text are tokens, so paths tell one ending of them. -/
theorem ends_words_iff {text token : String} {rest : List String}
    (split : Text.words text = token :: rest) {e : Ending α} :
    r.Ends (Text.words text) e ↔ e = r.ending (token :: rest) := by
  have present : Text.words text ≠ [] := split ▸ List.cons_ne_nil token rest
  rw [ends_iff (fun _ member => Text.isWord_of_mem_words member) present, split]

/-- What lies on the way to a command does not count for the ending. -/
theorem ending_append {before later : List String} {c : Command α} (found : r.follow? before = some c) :
    r.ending (before ++ later) = c.endingBelow later := by
  cases before with
  | nil => cases found
  | cons token rest =>
    obtain ⟨top, above, below⟩ := Option.bind_eq_some_iff.mp found
    rw [List.cons_append, ending_of_found above, Command.endingBelow_append below]

/-- The way down cannot go on from a leaf. -/
theorem not_follow?_of_leaf {before later : List String} {c : Command α} {usage : Usage} (present : before ≠ [])
    (beyond : later ≠ []) (found : r.follow? before = some c) (leaf : c.usage? = some usage) :
    r.follow? (before ++ later) = none := by
  rw [follow?_append present, found]
  cases later with
  | nil => exact absurd rfl beyond
  | cons token rest =>
    cases c with
    | branch => cases leaf
    | leaf => rfl

/-- Of the paths that are made of the first tokens, none that goes on beyond a leaf leads anywhere. -/
theorem le_of_leaf (each : ∀ t ∈ tokens, Text.IsWord t) {k j : Nat} {c b : Command α} {usage : Usage}
    (bound : j < tokens.length) (found : r.resolve? (" ".intercalate (tokens.take (k + 1))) = some c)
    (leaf : c.usage? = some usage) (further : r.resolve? (" ".intercalate (tokens.take (j + 1))) = some b) :
    j ≤ k := by
  rw [resolve?_intercalate each] at found further
  by_contra later
  have split : tokens.take (j + 1) = tokens.take (k + 1) ++ (tokens.drop (k + 1)).take (j - k) := by
    rw [← List.take_add]
    congr 1
    omega
  have present : tokens.take (k + 1) ≠ [] := by
    intro none
    have length := congrArg List.length none
    simp only [List.length_take, List.length_nil] at length
    omega
  have beyond : (tokens.drop (k + 1)).take (j - k) ≠ [] := by
    intro none
    have length := congrArg List.length none
    simp only [List.length_take, List.length_drop, List.length_nil] at length
    omega
  rw [split, not_follow?_of_leaf present beyond found leaf] at further
  cases further

end Registry

end ChatCommands
