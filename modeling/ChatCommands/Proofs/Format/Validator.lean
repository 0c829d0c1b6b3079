import ChatCommands.Format.Validator
import ChatCommands.Proofs.Json.Record

namespace ChatCommands.ValidatorSpec

open ChatCommands.Json

/-- The bounds of whole numbers have 64 bits. -/
def Fits : ValidatorSpec → Prop
  | integerRange min max =>
    (-9223372036854775808 ≤ min ∧ min < 9223372036854775808) ∧
      -9223372036854775808 ≤ max ∧ max < 9223372036854775808
  | _ => True

/-- Nothing in it is a double. -/
def IsExact : ValidatorSpec → Prop
  | floatRange _ _ => False
  | _ => True

theorem readMembers_apart {members : List (String × Json)} (apart : ∀ m ∈ members, m.1 ≠ "type")
    (kind? : Option Kind) : readMembers (memberReadings members) kind? = .ok (kind?, members) := by
  induction members with
  | nil => rfl
  | cons m rest ih =>
    obtain ⟨other, others⟩ := List.forall_mem_cons.mp apart
    rw [memberReadings, readMembers, if_neg other, whole?_reading]
    exact bind_eq_ok.mpr ⟨m.2, rfl, bind_eq_ok.mpr ⟨(kind?, rest), ih others, rfl⟩⟩

/-- The kind is found wherever it stands. -/
theorem readMembers_type {tag : String} {kind : Kind} (known : Kind.all.lookup tag = some kind)
    {front back : List (String × Json)} (apart : ∀ m ∈ front ++ back, m.1 ≠ "type") :
    readMembers (memberReadings (front ++ ("type", .string tag) :: back)) none = .ok (some kind, front ++ back) := by
  induction front with
  | nil =>
    have given : Kind.read (.string tag) = .ok kind := by
      rw [Kind.read]
      exact bind_eq_ok.mpr ⟨tag, rfl, by rw [known]; rfl⟩
    rw [List.nil_append, memberReadings, readMembers, if_pos rfl]
    exact bind_eq_ok.mpr ⟨kind, given, readMembers_apart apart (some kind)⟩
  | cons m rest ih =>
    obtain ⟨other, others⟩ := List.forall_mem_cons.mp apart
    rw [List.cons_append, memberReadings, readMembers, if_neg other, whole?_reading]
    exact bind_eq_ok.mpr ⟨m.2, rfl, bind_eq_ok.mpr ⟨_, ih others, rfl⟩⟩

/-- A validator is built from the members that stand with its kind. -/
theorem read_tagged {tag : String} {kind : Kind} (known : Kind.all.lookup tag = some kind)
    {others : List (String × Json)} (apart : ∀ m ∈ others, m.1 ≠ "type") {j : Json}
    (alike : (object (("type", .string tag) :: others)).Alike j) :
    ∃ rest, (object others).Alike (object rest) ∧ read j.reading = kind.build (.object rest) := by
  cases alike with
  | @object _ members shuffled alike perm =>
    obtain ⟨_, others', ⟨same⟩, each, rfl⟩ := List.forall₂_cons_left_iff.mp alike
    cases same
    obtain ⟨front, back, rfl⟩ := List.append_of_mem (perm.mem_iff.mp (List.mem_cons_self ..))
    have perm : others'.Perm (front ++ back) := (perm.trans List.perm_middle).cons_inv
    have apart' : ∀ m ∈ front ++ back, m.1 ≠ "type" := by
      intro m member own
      have key : m.1 ∈ others.map Prod.fst :=
        Fills.keys_alike each ▸ List.mem_map_of_mem (perm.mem_iff.mpr member)
      obtain ⟨given, found, same⟩ := List.mem_map.mp key
      exact apart given found (same.trans own)
    refine ⟨front ++ back, .object each perm, ?_⟩
    rw [reading, read, readMembers_type known apart']
    rfl

theorem readsAs_bare {tag : String} {spec : ValidatorSpec} {bound : Nat} (kind : Kind)
    (known : Kind.all.lookup tag = some kind) (bare : ∀ members, kind.build (.object members) = .ok spec) :
    (object [("type", .string tag)]).ReadsAs bound read spec := by
  intro j alike _
  obtain ⟨rest, _, same⟩ := read_tagged known (List.forall_mem_nil _) alike
  exact same.trans (bare rest)

/-- What a kind takes is read from the members that stand with it. -/
theorem readsAs_taking {tag : String} {spec : ValidatorSpec} {bound : Nat} {members : List (String × Json)}
    (kind : Kind) (fs : List Field) (values : Values fs) (known : Kind.all.lookup tag = some kind)
    (fills : ∀ bound, Fills bound fs members values) (distinct : ("type" :: fs.map Field.key).Nodup)
    (built : ∀ rest, ((record fs rest.reading).mapError fun _ => Defect.mismatch) = .ok values →
      kind.build rest = .ok spec) :
    (object (("type", .string tag) :: members)).ReadsAs bound read spec := by
  intro j alike _
  obtain ⟨apart, distinct⟩ := List.nodup_cons.mp distinct
  have others : ∀ m ∈ members, m.1 ≠ "type" := by
    intro m member own
    rw [← (fills bound).keys, ← own] at apart
    exact apart (List.mem_map_of_mem member)
  obtain ⟨rest, alike, same⟩ := read_tagged known others alike
  have run := record_reading (fills _) distinct alike (Nat.lt_succ_self _)
  exact same.trans (built _ (congrArg (Except.mapError _) run))

theorem readsAs {bound : Nat} {spec : ValidatorSpec} (fits : spec.Fits) : spec.toJson.ReadsAs bound read spec := by
  cases spec with
  | string => exact readsAs_bare .string (by decide) fun _ => rfl
  | integer => exact readsAs_bare .integer (by decide) fun _ => rfl
  | integerRange min max =>
    refine readsAs_taking .integerRange [.required "min" Reader.integer, .required "max" Reader.integer]
      (min, max, ()) (by decide) (fun _ => .cons (.integer fits.1) (.cons (.integer fits.2) .nil)) (by decide) ?_
    exact fun rest run => bind_eq_ok.mpr ⟨_, run, rfl⟩
  | float => exact readsAs_bare .float (by decide) fun _ => rfl
  | floatRange min max =>
    refine readsAs_taking .floatRange [.required "min" Reader.number, .required "max" Reader.number]
      (min, max, ()) (by decide) (fun _ => .cons (.number min) (.cons (.number max) .nil)) (by decide) ?_
    exact fun rest run => bind_eq_ok.mpr ⟨_, run, rfl⟩
  | oneOf options =>
    refine readsAs_taking .oneOf [.required "options" (Reader.list Reader.string)] (options, ()) (by decide)
      (fun _ => .cons (.strings options) .nil) (by decide) ?_
    exact fun rest run => bind_eq_ok.mpr ⟨_, run, rfl⟩
  | boolean => exact readsAs_bare .boolean (by decide) fun _ => rfl
  | userMention => exact readsAs_bare .userMention (by decide) fun _ => rfl
  | channelMention => exact readsAs_bare .channelMention (by decide) fun _ => rfl

theorem eq_of_bare {spec result : ValidatorSpec} {rest : Json} (run : Kind.bare spec rest = .ok result) :
    result = spec := by
  rw [Kind.bare.eq_def] at run
  split at run
  · cases run
  · cases run
    rfl

theorem fits_of_build {kind : Kind} {rest : Json} {spec : ValidatorSpec} (run : kind.build rest = .ok spec) :
    spec.Fits := by
  cases kind with
  | integerRange =>
    obtain ⟨⟨min, max, _⟩, given, made⟩ := bind_eq_ok.mp run
    cases made
    have obtained := obtained_of_record (mapError_eq_ok.mp given)
    obtain ⟨_, least⟩ := obtained.required
    obtain ⟨_, greatest⟩ := obtained.2.required
    exact ⟨Reader.integer_bounds least, Reader.integer_bounds greatest⟩
  | floatRange | oneOf =>
    obtain ⟨_, _, made⟩ := bind_eq_ok.mp run
    cases made
    trivial
  | string | integer | float | boolean | userMention | channelMention =>
    cases eq_of_bare run
    trivial

/-- A validator that was read has bounds that fit. -/
theorem fits_of_read {r : Reading} {spec : ValidatorSpec} (run : read r = .ok spec) : spec.Fits := by
  rw [read.eq_def] at run
  split at run
  · obtain ⟨⟨kind?, others⟩, _, run⟩ := bind_eq_ok.mp run
    obtain ⟨_, _, run⟩ := bind_eq_ok.mp run
    cases kind? with
    | none => cases run
    | some kind => exact fits_of_build run
  · obtain ⟨_, _, run⟩ := bind_eq_ok.mp run
    cases run
  · obtain ⟨kind, _, run⟩ := bind_eq_ok.mp run
    obtain ⟨others, _, run⟩ := bind_eq_ok.mp run
    obtain ⟨_, _, run⟩ := bind_eq_ok.mp run
    exact fits_of_build run
  · cases run
  · cases run
  · cases run

end ChatCommands.ValidatorSpec
