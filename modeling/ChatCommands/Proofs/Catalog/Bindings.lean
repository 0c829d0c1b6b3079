import Mathlib.Data.List.Induction
import Mathlib.Data.List.Nodup
import ChatCommands.Catalog
import ChatCommands.Proofs.Chat.Entries
import ChatCommands.Proofs.Name

namespace ChatCommands.Bindings

variable {α : Type}

/-- The bindings made of these paths, in any spelling, and their actions, one after another. -/
def ofPairs (pairs : List (String × α)) : Bindings α := pairs.foldl (fun b pair => b.bind pair.1 pair.2) []

/-- The normal forms of the paths that have an action. -/
def paths (b : Bindings α) : List String := b.map Prod.fst

/-- The normal forms of the paths of these pairs. -/
def boundPaths (pairs : List (String × α)) : List String := pairs.map fun pair => Name.normalisePath pair.1

/-- Of these pairs, the last with the path, however it is spelled, has the action. -/
def LastBound (pairs : List (String × α)) (path : String) (action : α) : Prop :=
  ∃ before spelling after, pairs = before ++ (spelling, action) :: after ∧
    Name.normalisePath spelling = Name.normalisePath path ∧
    ∀ pair ∈ after, Name.normalisePath pair.1 ≠ Name.normalisePath path

theorem lookup_bind (b : Bindings α) (path other : String) (action : α) :
    (b.bind path action).lookup other =
      if other = Name.normalisePath path then some action else b.lookup other :=
  lookup_setEntry (Name.normalisePath path) other action b

theorem lookup_erase (b : Bindings α) (path other : String) :
    (b.erase path).lookup other = if other = path then none else b.lookup other :=
  lookup_eraseEntry path other b

theorem ofPairs_concat (pairs : List (String × α)) (path : String) (action : α) :
    ofPairs (pairs ++ [(path, action)]) = (ofPairs pairs).bind path action := by
  rw [ofPairs, List.foldl_append]
  rfl

theorem not_lastBound_nil {path : String} {action : α} : ¬ LastBound [] path action := by
  rintro ⟨before, _, _, split, _⟩
  cases before <;> cases split

theorem lastBound_concat {pairs : List (String × α)} {spelling path : String} {bound action : α} :
    LastBound (pairs ++ [(spelling, bound)]) path action ↔
      if Name.normalisePath path = Name.normalisePath spelling then bound = action
      else LastBound pairs path action := by
  constructor
  · rintro ⟨before, spelling', after, split, spelled, others⟩
    rcases List.eq_nil_or_concat after with rfl | ⟨after, last, rfl⟩
    · obtain ⟨_, single⟩ := List.append_inj' split rfl
      cases single
      rw [if_pos spelled.symm]
    · rw [List.concat_eq_append] at split others
      rw [← List.cons_append, ← List.append_assoc] at split
      obtain ⟨rfl, single⟩ := List.append_inj' split rfl
      cases single
      obtain ⟨others, other⟩ := List.forall_mem_append.mp others
      have different := other _ (List.mem_singleton_self _)
      rw [if_neg (Ne.symm different)]
      exact ⟨before, spelling', after, rfl, spelled, others⟩
  · intro last
    split at last
    · rename_i same
      subst last
      exact ⟨pairs, spelling, [], rfl, same.symm, List.forall_mem_nil _⟩
    · rename_i other
      obtain ⟨before, spelling', after, rfl, spelled, others⟩ := last
      refine ⟨before, spelling', after ++ [(spelling, bound)], List.append_assoc .., spelled, ?_⟩
      exact List.forall_mem_append.mpr ⟨others, List.forall_mem_singleton.mpr (Ne.symm other)⟩

/-- A path has the action that was bound to it last. -/
theorem lookup_ofPairs {pairs : List (String × α)} {path : String} {action : α} :
    (ofPairs pairs).lookup (Name.normalisePath path) = some action ↔ LastBound pairs path action := by
  induction pairs using List.reverseRecOn with
  | nil => exact ⟨nofun, fun bound => absurd bound not_lastBound_nil⟩
  | append_singleton pairs last ih =>
    rw [ofPairs_concat, lookup_bind, lastBound_concat]
    split
    · exact Option.some_inj
    · exact ih

theorem mem_paths_ofPairs {pairs : List (String × α)} {path : String} :
    path ∈ (ofPairs pairs).paths ↔ path ∈ boundPaths pairs := by
  rw [paths, ← isSome_lookup_iff]
  induction pairs using List.reverseRecOn with
  | nil => simp [ofPairs, boundPaths]
  | append_singleton pairs last ih =>
    rw [ofPairs_concat, lookup_bind, boundPaths, List.map_append, List.mem_append, ← boundPaths]
    by_cases same : path = Name.normalisePath last.1
    · simp [same]
    · rw [if_neg same, ih]
      simp [same]

theorem least?_eq_none_iff {b : Bindings α} : b.least? = none ↔ b = [] := by
  cases b with
  | nil => exact ⟨fun _ => rfl, fun _ => rfl⟩
  | cons entry rest =>
    rw [least?]
    split <;> exact ⟨nofun, nofun⟩

theorem least?_le {b : Bindings α} {path : String} (least : b.least? = some path) :
    path ∈ b.paths ∧ ∀ other ∈ b.paths, path ≤ other := by
  induction b generalizing path with
  | nil => cases least
  | cons entry rest ih =>
    rw [least?] at least
    split at least
    · rename_i none
      cases least
      rw [least?_eq_none_iff.mp none]
      exact ⟨List.mem_singleton_self _, List.forall_mem_singleton.mpr (String.le_refl _)⟩
    · rename_i other found
      obtain ⟨member, below⟩ := ih found
      split at least
      · rename_i smaller
        cases least
        refine ⟨List.mem_cons_of_mem _ member, List.forall_mem_cons.mpr ⟨?_, below⟩⟩
        exact String.not_lt.mp (String.lt_asymm smaller)
      · rename_i smaller
        cases least
        refine ⟨List.mem_cons_self .., List.forall_mem_cons.mpr ⟨String.le_refl _, fun path member => ?_⟩⟩
        exact String.le_trans (String.not_lt.mp smaller) (below path member)

theorem least?_eq_some_iff {b : Bindings α} {path : String} :
    b.least? = some path ↔ path ∈ b.paths ∧ ∀ other ∈ b.paths, path ≤ other := by
  refine ⟨least?_le, ?_⟩
  rintro ⟨member, below⟩
  cases found : b.least? with
  | none =>
    rw [least?_eq_none_iff.mp found] at member
    cases member
  | some least =>
    obtain ⟨member', below'⟩ := least?_le found
    exact congrArg some (String.le_antisymm (below' path member) (below least member'))

/-- Takes paths out of the bindings one after another. Each of them has to be there when its turn comes. -/
def consume (b : Bindings α) : List String → Except DefinitionError (Bindings α)
  | [] => .ok b
  | path :: rest =>
    match b.lookup path with
    | none => .error (.unboundAction path)
    | some _ => (b.erase path).consume rest

theorem consume_append (b : Bindings α) (first later : List String) :
    b.consume (first ++ later) = b.consume first >>= fun left => left.consume later := by
  induction first generalizing b with
  | nil => rfl
  | cons path rest ih =>
    rw [List.cons_append, consume, consume]
    split
    · rfl
    · exact ih _

/-- Only what is not consumed is left, with the action that it had. -/
theorem lookup_of_consume {b left : Bindings α} {consumed : List String} (run : b.consume consumed = .ok left)
    (path : String) : left.lookup path = if path ∈ consumed then none else b.lookup path := by
  induction consumed generalizing b with
  | nil =>
    cases run
    rw [if_neg (List.not_mem_nil)]
  | cons first rest ih =>
    rw [consume] at run
    split at run
    · cases run
    · rw [ih run, lookup_erase]
      by_cases same : path = first
      · simp [same]
      · simp [same]

theorem mem_paths_of_consume {b left : Bindings α} {consumed : List String}
    (run : b.consume consumed = .ok left) {path : String} :
    path ∈ left.paths ↔ path ∉ consumed ∧ path ∈ b.paths := by
  rw [paths, paths, ← isSome_lookup_iff, ← isSome_lookup_iff, lookup_of_consume run]
  by_cases taken : path ∈ consumed
  · simp [taken]
  · simp [taken]

theorem consume_singleton (b : Bindings α) (path : String) :
    b.consume [path] = if path ∈ b.paths then .ok (b.erase path) else .error (.unboundAction path) := by
  rw [consume, paths]
  cases bound : b.lookup path with
  | none => rw [if_neg (by simp [← isSome_lookup_iff, bound])]
  | some action => rw [if_pos (by simp [← isSome_lookup_iff, bound]), consume]

theorem consume_isOk_iff {b : Bindings α} {consumed : List String} :
    (∃ left, b.consume consumed = .ok left) ↔ consumed.Nodup ∧ ∀ path ∈ consumed, path ∈ b.paths := by
  induction consumed using List.reverseRecOn with
  | nil => simp [consume]
  | append_singleton before last ih =>
    rw [List.nodup_append_comm, List.singleton_append, List.nodup_cons, List.forall_mem_append,
      List.forall_mem_singleton, consume_append]
    constructor
    · rintro ⟨_, run⟩
      obtain ⟨between, first, run⟩ := bind_eq_ok.mp run
      obtain ⟨distinct, all⟩ := ih.mp ⟨between, first⟩
      rw [consume_singleton] at run
      split at run
      · rename_i bound
        obtain ⟨fresh, bound⟩ := (mem_paths_of_consume first).mp bound
        exact ⟨⟨fresh, distinct⟩, all, bound⟩
      · cases run
    · rintro ⟨⟨fresh, distinct⟩, all, bound⟩
      obtain ⟨between, first⟩ := ih.mpr ⟨distinct, all⟩
      refine ⟨between.erase last, bind_eq_ok.mpr ⟨between, first, ?_⟩⟩
      rw [consume_singleton, if_pos ((mem_paths_of_consume first).mpr ⟨fresh, bound⟩)]

/-- The first of the paths to be consumed that is not bound, or was consumed before. -/
def FirstUnbound (consumed bound : List String) (path : String) : Prop :=
  ∃ before after, consumed = before ++ path :: after ∧ before.Nodup ∧ (∀ other ∈ before, other ∈ bound) ∧
    (path ∈ before ∨ path ∉ bound)

/-- The least of the bound paths that are not consumed. -/
def LeastUnused (consumed bound : List String) (path : String) : Prop :=
  path ∈ bound ∧ path ∉ consumed ∧ ∀ other ∈ bound, other ∉ consumed → path ≤ other

theorem consume_eq_error_iff {b : Bindings α} {consumed : List String} {e : DefinitionError} :
    b.consume consumed = .error e ↔ ∃ path, e = .unboundAction path ∧ FirstUnbound consumed b.paths path := by
  constructor
  · intro run
    induction consumed using List.reverseRecOn with
    | nil => cases run
    | append_singleton init last ih =>
      rw [consume_append] at run
      cases first : b.consume init with
      | error e' =>
        rw [first] at run
        cases run
        obtain ⟨path, same, before, after, rfl, found⟩ := ih first
        exact ⟨path, same, before, after ++ [last], List.append_assoc .., found⟩
      | ok left =>
        rw [first] at run
        change left.consume [last] = .error e at run
        rw [consume_singleton] at run
        split at run
        · cases run
        · rename_i missing
          cases run
          obtain ⟨distinct, all⟩ := consume_isOk_iff.mp ⟨left, first⟩
          rw [mem_paths_of_consume first, not_and_or, not_not] at missing
          exact ⟨last, rfl, init, [], rfl, distinct, all, missing⟩
  · rintro ⟨path, rfl, before, after, rfl, distinct, all, missing⟩
    obtain ⟨left, first⟩ := consume_isOk_iff.mpr ⟨distinct, all⟩
    have gone : path ∉ left.paths := by
      rw [mem_paths_of_consume first, not_and_or, not_not]
      exact missing
    rw [← List.singleton_append, consume_append, first]
    change left.consume ([path] ++ after) = _
    rw [consume_append, consume_singleton, if_neg gone]
    rfl

theorem no_firstUnbound_iff {b : Bindings α} {consumed : List String} :
    (¬ ∃ path, FirstUnbound consumed b.paths path) ↔ ∃ left, b.consume consumed = .ok left := by
  cases run : b.consume consumed with
  | ok left => exact iff_of_true (fun ⟨path, first⟩ => by
      cases run.symm.trans (consume_eq_error_iff.mpr ⟨path, rfl, first⟩)) ⟨left, rfl⟩
  | error e =>
    obtain ⟨path, _, first⟩ := consume_eq_error_iff.mp run
    exact iff_of_false (fun none => none ⟨path, first⟩) nofun

/-- Takes all of the paths out of the bindings, which has to leave nothing there. -/
def exhaust (b : Bindings α) (consumed : List String) : Except DefinitionError Unit :=
  b.consume consumed >>= fun left =>
    match left.least? with
    | some path => .error (.unusedAction path)
    | none => .ok ()

theorem exhaust_eq_ok_iff {b : Bindings α} {consumed : List String} :
    b.exhaust consumed = .ok () ↔ consumed.Nodup ∧ ∀ path, path ∈ consumed ↔ path ∈ b.paths := by
  constructor
  · intro run
    obtain ⟨left, run, none⟩ := bind_eq_ok.mp run
    obtain ⟨distinct, bound⟩ := consume_isOk_iff.mp ⟨left, run⟩
    refine ⟨distinct, fun path => ⟨bound path, fun member => ?_⟩⟩
    by_contra spared
    have unused := (mem_paths_of_consume run).mpr ⟨spared, member⟩
    split at none
    · cases none
    · rename_i empty
      rw [least?_eq_none_iff.mp empty] at unused
      cases unused
  · rintro ⟨distinct, same⟩
    obtain ⟨left, run⟩ := consume_isOk_iff.mpr ⟨distinct, fun path => (same path).mp⟩
    refine bind_eq_ok.mpr ⟨left, run, ?_⟩
    split
    · rename_i path least
      obtain ⟨spared, bound⟩ := (mem_paths_of_consume run).mp (least?_eq_some_iff.mp least).1
      exact absurd ((same path).mpr bound) spared
    · rfl

theorem least?_of_consume {b left : Bindings α} {consumed : List String} (run : b.consume consumed = .ok left)
    {path : String} : left.least? = some path ↔ LeastUnused consumed b.paths path := by
  rw [least?_eq_some_iff, mem_paths_of_consume run]
  constructor
  · rintro ⟨⟨spared, bound⟩, least⟩
    exact ⟨bound, spared, fun other bound spared => least other ((mem_paths_of_consume run).mpr ⟨spared, bound⟩)⟩
  · rintro ⟨bound, spared, least⟩
    refine ⟨⟨spared, bound⟩, fun other unused => ?_⟩
    obtain ⟨spared, bound⟩ := (mem_paths_of_consume run).mp unused
    exact least other bound spared

/-- A path that is not bound is reported first, and then a bound path that was not consumed. -/
theorem exhaust_eq_error_iff {b : Bindings α} {consumed : List String} {e : DefinitionError} :
    b.exhaust consumed = .error e ↔
      (∃ path, e = .unboundAction path ∧ FirstUnbound consumed b.paths path) ∨
      ∃ path, e = .unusedAction path ∧ (¬ ∃ first, FirstUnbound consumed b.paths first) ∧
        LeastUnused consumed b.paths path := by
  rw [no_firstUnbound_iff, ← consume_eq_error_iff, exhaust]
  cases run : b.consume consumed with
  | error e' =>
    constructor
    · intro reported
      cases reported
      exact .inl rfl
    · rintro (reported | ⟨_, _, ⟨_, done⟩, _⟩)
      · cases reported
        rfl
      · cases done
  | ok left =>
    simp only [Bind.bind, Except.bind, ← least?_of_consume run]
    cases left.least? with
    | none => simp
    | some path => simp [eq_comm]

end ChatCommands.Bindings
