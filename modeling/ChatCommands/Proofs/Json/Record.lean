import Mathlib.Data.List.Perm.Basic
import ChatCommands.Json.Record
import ChatCommands.Proofs.Name

namespace ChatCommands

namespace Json

/-- The same key, with values that are related. -/
inductive SameKey (related : Json → Json → Prop) : String × Json → String × Json → Prop
  | intro {key value value'} : related value value' → SameKey related (key, value) (key, value')

/-- The same value, with the members of its objects in any order. -/
inductive Alike : Json → Json → Prop
  | null : Alike null null
  | bool {b} : Alike (bool b) (bool b)
  | whole {n} : Alike (whole n) (whole n)
  | double {x} : Alike (double x) (double x)
  | string {s} : Alike (string s) (string s)
  | array {items items'} : List.Forall₂ Alike items items' → Alike (array items) (array items')
  | object {members members' shuffled} : List.Forall₂ (SameKey Alike) members members' →
      members'.Perm shuffled → Alike (object members) (object shuffled)

mutual

theorem Alike.refl : (j : Json) → j.Alike j
  | .null => .null
  | .bool _ => .bool
  | .whole _ => .whole
  | .double _ => .double
  | .string _ => .string
  | .array items => .array (forall₂_alike items)
  | .object members => .object (forall₂_alike_members members) (.refl _)

theorem forall₂_alike : (items : List Json) → List.Forall₂ Alike items items
  | [] => .nil
  | item :: rest => .cons (Alike.refl item) (forall₂_alike rest)

theorem forall₂_alike_members : (members : List (String × Json)) →
    List.Forall₂ (SameKey Alike) members members
  | [] => .nil
  | (_, value) :: rest => .cons (.intro (Alike.refl value)) (forall₂_alike_members rest)

end

mutual

/-- A value that was read without a fault is there as a whole. -/
theorem whole?_reading : (j : Json) → j.reading.whole? = .ok j
  | .null | .bool _ | .whole _ | .double _ | .string _ => by rw [reading, Reading.whole?]
  | .array items => by
    rw [reading, Reading.whole?, wholeItems_readings items]
    rfl
  | .object members => by
    rw [reading, Reading.whole?, wholeMembers_memberReadings members]
    rfl

theorem wholeItems_readings : (items : List Json) → Reading.wholeItems (readings items) = .ok items
  | [] => by rw [readings, Reading.wholeItems]
  | item :: rest => by
    rw [readings, Reading.wholeItems, whole?_reading item, wholeItems_readings rest]
    rfl

theorem wholeMembers_memberReadings : (members : List (String × Json)) →
    Reading.wholeMembers (memberReadings members) = .ok members
  | [] => by rw [memberReadings, Reading.wholeMembers]
  | (key, value) :: rest => by
    rw [memberReadings, Reading.wholeMembers, whole?_reading value, wholeMembers_memberReadings rest]
    rfl

end

theorem height_lt_array {items : List Json} {item : Json} (member : item ∈ items) :
    item.reading.height < (array items).reading.height := by
  rw [reading, Reading.height, Nat.lt_succ_iff]
  induction items with
  | nil => cases member
  | cons first rest ih =>
    rw [readings, Reading.heightItems]
    rcases List.mem_cons.mp member with rfl | later
    · exact Nat.le_max_left ..
    · exact Nat.le_trans (ih later) (Nat.le_max_right ..)

theorem height_lt_object {members : List (String × Json)} {m : String × Json} (member : m ∈ members) :
    m.2.reading.height < (object members).reading.height := by
  rw [reading, Reading.height, Nat.lt_succ_iff]
  induction members with
  | nil => cases member
  | cons first rest ih =>
    rw [memberReadings, Reading.heightMembers]
    rcases List.mem_cons.mp member with rfl | later
    · exact Nat.le_max_left ..
    · exact Nat.le_trans (ih later) (Nat.le_max_right ..)

namespace Slots

variable {f : Field} {fs : List Field} {key key' : String} {r r' : Reading}

theorem put_own {slot : Option f.type} {slots : Slots fs} (own : key = f.key) :
    put (f :: fs) key r (slot, slots) =
      match slot with
      | some _ => .error .mismatch
      | none => f.read r >>= fun value => .ok (some value, slots) :=
  if_pos own

theorem put_other {slot : Option f.type} {slots : Slots fs} (other : key ≠ f.key) :
    put (f :: fs) key r (slot, slots) = put fs key r slots >>= fun rest => .ok (slot, rest) :=
  if_neg other

theorem put_cons_eq_ok {slot : Option f.type} {slots : Slots fs} {after : Slots (f :: fs)} :
    put (f :: fs) key r (slot, slots) = .ok after ↔
      (key = f.key ∧ slot = none ∧ ∃ value, f.read r = .ok value ∧ after = (some value, slots)) ∨
      (key ≠ f.key ∧ ∃ rest, put fs key r slots = .ok rest ∧ after = (slot, rest)) := by
  constructor
  · intro run
    by_cases own : key = f.key
    · refine .inl ⟨own, ?_⟩
      rw [put_own own] at run
      cases slot with
      | some => cases run
      | none =>
        obtain ⟨value, given, made⟩ := bind_eq_ok.mp run
        cases made
        exact ⟨rfl, value, given, rfl⟩
    · rw [put_other own] at run
      obtain ⟨rest, later, made⟩ := bind_eq_ok.mp run
      cases made
      exact .inr ⟨own, rest, later, rfl⟩
  · rintro (⟨own, rfl, value, given, rfl⟩ | ⟨other, rest, later, rfl⟩)
    · exact (put_own own).trans (bind_eq_ok.mpr ⟨value, given, rfl⟩)
    · exact (put_other other).trans (bind_eq_ok.mpr ⟨rest, later, rfl⟩)

/-- Two members under different keys can be taken in one way or the other. -/
theorem put_comm (differ : key ≠ key') {a b c : Slots fs} (first : put fs key r a = .ok b)
    (later : put fs key' r' b = .ok c) : ∃ b', put fs key' r' a = .ok b' ∧ put fs key r b' = .ok c := by
  induction fs with
  | nil =>
    obtain ⟨_, passed, same⟩ := bind_eq_ok.mp first
    cases same
    exact ⟨c, later, bind_eq_ok.mpr ⟨_, passed, rfl⟩⟩
  | cons f fs ih =>
    obtain ⟨slot, slots⟩ := a
    rcases put_cons_eq_ok.mp first with ⟨own, rfl, value, given, rfl⟩ | ⟨other, rest, between, rfl⟩
    · rcases put_cons_eq_ok.mp later with ⟨own', _⟩ | ⟨other', rest, beyond, rfl⟩
      · exact absurd (own.trans own'.symm) differ
      · exact ⟨(none, rest), put_cons_eq_ok.mpr (.inr ⟨other', rest, beyond, rfl⟩),
          put_cons_eq_ok.mpr (.inl ⟨own, rfl, value, given, rfl⟩)⟩
    · rcases put_cons_eq_ok.mp later with ⟨own', rfl, value, given, rfl⟩ | ⟨other', rest', beyond, rfl⟩
      · exact ⟨(some value, slots), put_cons_eq_ok.mpr (.inl ⟨own', rfl, value, given, rfl⟩),
          put_cons_eq_ok.mpr (.inr ⟨other, rest, between, rfl⟩)⟩
      · obtain ⟨middle, front, back⟩ := ih between beyond
        exact ⟨(slot, middle), put_cons_eq_ok.mpr (.inr ⟨other', middle, front, rfl⟩),
          put_cons_eq_ok.mpr (.inr ⟨other, rest', back, rfl⟩)⟩

theorem putAll_cons_eq_ok {m : String × Json} {rest : List (String × Json)} {slots after : Slots fs} :
    putAll fs (memberReadings (m :: rest)) slots = .ok after ↔
      ∃ between, put fs m.1 m.2.reading slots = .ok between ∧ putAll fs (memberReadings rest) between = .ok after :=
  bind_eq_ok

/-- Members under different keys can be taken in in any order. -/
theorem putAll_perm {members shuffled : List (String × Json)} (perm : members.Perm shuffled)
    (distinct : (members.map Prod.fst).Nodup) {slots after : Slots fs}
    (run : putAll fs (memberReadings members) slots = .ok after) :
    putAll fs (memberReadings shuffled) slots = .ok after := by
  induction perm generalizing slots with
  | nil => exact run
  | cons m _ ih =>
    obtain ⟨between, first, later⟩ := putAll_cons_eq_ok.mp run
    exact putAll_cons_eq_ok.mpr ⟨between, first, ih (List.nodup_cons.mp distinct).2 later⟩
  | swap m m' rest =>
    obtain ⟨once, second, later⟩ := putAll_cons_eq_ok.mp run
    obtain ⟨both, first, later⟩ := putAll_cons_eq_ok.mp later
    have differ : m'.1 ≠ m.1 := fun same => (List.nodup_cons.mp distinct).1 (by simp [same])
    obtain ⟨once', first', second'⟩ := put_comm differ second first
    exact putAll_cons_eq_ok.mpr ⟨once', first', putAll_cons_eq_ok.mpr ⟨both, second', later⟩⟩
  | trans perm _ ih ih' => exact ih' ((perm.map Prod.fst).nodup_iff.mp distinct) (ih distinct run)

/-- Members under other keys leave a slot as it is. -/
theorem putAll_apart {members : List (String × Json)} (apart : ∀ m ∈ members, m.1 ≠ f.key)
    {slot : Option f.type} {slots after : Slots fs} (run : putAll fs (memberReadings members) slots = .ok after) :
    putAll (f :: fs) (memberReadings members) (slot, slots) = .ok (slot, after) := by
  induction members generalizing slots with
  | nil =>
    cases run
    rfl
  | cons m rest ih =>
    obtain ⟨between, first, later⟩ := putAll_cons_eq_ok.mp run
    obtain ⟨other, others⟩ := List.forall_mem_cons.mp apart
    exact putAll_cons_eq_ok.mpr ⟨(slot, between), put_cons_eq_ok.mpr (.inr ⟨other, between, first, rfl⟩),
      ih others later⟩

end Slots

variable {α β : Type} {bound : Nat}

/-- A value that is read as `value`, in whatever order its members stand. The bound on its height is there for
readers that go down to a certain depth only. -/
def ReadsAs (json : Json) (bound : Nat) (read : Reader α) (value : α) : Prop :=
  ∀ j, json.Alike j → j.reading.height < bound → read j.reading = .ok value

namespace ReadsAs

theorem mono {json : Json} {read : Reader α} {value : α} {less : Nat} (reads : json.ReadsAs bound read value)
    (le : less ≤ bound) : json.ReadsAs less read value :=
  fun j alike low => reads j alike (Nat.lt_of_lt_of_le low le)

theorem reads {json : Json} {read : Reader α} {value : α} (each : ∀ bound, json.ReadsAs bound read value)
    {j : Json} (alike : json.Alike j) : read j.reading = .ok value :=
  each _ j alike (Nat.lt_succ_self _)

theorem string (s : String) : (Json.string s).ReadsAs bound Reader.string s := by
  intro j alike _
  cases alike
  rfl

theorem bool (b : Bool) : (Json.bool b).ReadsAs bound Reader.bool b := by
  intro j alike _
  cases alike
  rfl

theorem natural {n limit : Nat} (fits : n < limit) : (Json.whole n).ReadsAs bound (Reader.natural limit) n := by
  intro j alike _
  cases alike
  rw [reading, Reader.natural, if_pos ⟨Int.natCast_nonneg n, Int.ofNat_lt.mpr fits⟩, Int.toNat_natCast]

theorem integer {n : Int} (fits : -9223372036854775808 ≤ n ∧ n < 9223372036854775808) :
    (Json.whole n).ReadsAs bound Reader.integer n := by
  intro j alike _
  cases alike
  rw [reading, Reader.integer, if_pos fits]

theorem number (x : Float) : (Json.double x).ReadsAs bound Reader.number x := by
  intro j alike _
  cases alike
  rfl

theorem optional {read : Reader α} {write : α → Json} {value? : Option α} (refuses : ∀ a, read .null ≠ .ok a)
    (reads : ∀ value, value? = some value → (write value).ReadsAs bound read value) :
    (ofOption write value?).ReadsAs bound read.optional value? := by
  intro j alike low
  cases value? with
  | none =>
    cases alike
    rfl
  | some value =>
    have given := reads value rfl j alike low
    rw [Reader.optional.eq_def]
    split
    · rename_i none
      rw [none] at given
      exact absurd given (refuses value)
    · rw [given]
      rfl

theorem list {read : Reader α} {write : α → Json} {values : List α}
    (reads : ∀ value ∈ values, (write value).ReadsAs bound read value) :
    (array (values.map write)).ReadsAs bound (Reader.list read) values := by
  intro j alike low
  cases alike with
  | @array _ items alike =>
    have each : (readings items).mapM read = .ok values := by
      rw [List.forall₂_map_left_iff] at alike
      have lower : ∀ item ∈ items, item.reading.height < bound := fun item member =>
        Nat.lt_trans (height_lt_array member) low
      clear low
      induction alike with
      | nil => rfl
      | cons same _ ih =>
        obtain ⟨first, others⟩ := List.forall_mem_cons.mp reads
        obtain ⟨low, lows⟩ := List.forall_mem_cons.mp lower
        rw [readings, List.mapM_cons, first _ same low, ih others lows]
        rfl
    rw [reading, Reader.list, each]
    rfl

theorem strings (texts : List String) : (strings texts).ReadsAs bound (Reader.list Reader.string) texts :=
  list fun text _ => string text

end ReadsAs

/-- Members that stand for the values of fields, each under the key of its field. -/
inductive Fills (bound : Nat) : (fs : List Field) → List (String × Json) → Values fs → Prop
  | nil : Fills bound [] [] ()
  | cons {f fs json members value values} : ReadsAs json bound f.read value → Fills bound fs members values →
      Fills bound (f :: fs) ((f.key, json) :: members) (value, values)

namespace Fills

variable {fs : List Field} {members : List (String × Json)} {values : Values fs}

theorem keys (fills : Fills bound fs members values) : members.map Prod.fst = fs.map Field.key := by
  induction fills with
  | nil => rfl
  | cons _ _ ih => rw [List.map_cons, List.map_cons, ih]

theorem keys_alike {members' : List (String × Json)}
    (alike : List.Forall₂ (SameKey Alike) members members') : members'.map Prod.fst = members.map Prod.fst := by
  induction alike with
  | nil => rfl
  | cons same _ ih =>
    cases same
    rw [List.map_cons, List.map_cons, ih]

theorem putAll {members' : List (String × Json)} (fills : Fills bound fs members values)
    (distinct : (fs.map Field.key).Nodup)
    (alike : List.Forall₂ (SameKey Alike) members members')
    (lower : ∀ m ∈ members', m.2.reading.height < bound) :
    ∃ slots, Slots.putAll fs (memberReadings members') (Slots.empty fs) = .ok slots ∧
      Slots.values fs slots = .ok values := by
  induction fills generalizing members' with
  | nil =>
    cases alike
    exact ⟨(), rfl, rfl⟩
  | @cons f fs json members value values reads fills ih =>
    obtain ⟨_, rest, ⟨same⟩, others, rfl⟩ := List.forall₂_cons_left_iff.mp alike
    obtain ⟨once, distinct⟩ := List.nodup_cons.mp distinct
    obtain ⟨low, lows⟩ := List.forall_mem_cons.mp lower
    obtain ⟨slots, taken, given⟩ := ih distinct others lows
    have apart : ∀ m ∈ rest, m.1 ≠ f.key := by
      intro m member own
      rw [← fills.keys, ← keys_alike others, ← own] at once
      exact once (List.mem_map_of_mem member)
    refine ⟨(some value, slots), Slots.putAll_cons_eq_ok.mpr ⟨(some value, Slots.empty fs), ?_,
      Slots.putAll_apart apart taken⟩, ?_⟩
    · exact Slots.put_cons_eq_ok.mpr (.inl ⟨rfl, rfl, value, reads _ same low, rfl⟩)
    · rw [Slots.values]
      exact bind_eq_ok.mpr ⟨values, given, rfl⟩

end Fills

/-- A record is read as the values of its fields, when each field is written under a key of its own. -/
theorem record_reading {fs : List Field} {members : List (String × Json)} {values : Values fs}
    (fills : Fills bound fs members values) (distinct : (fs.map Field.key).Nodup) {j : Json}
    (alike : (object members).Alike j) (low : j.reading.height < bound + 1) : record fs j.reading = .ok values := by
  cases alike with
  | @object _ members' shuffled alike perm =>
    have lower : ∀ m ∈ members', m.2.reading.height < bound := fun m member =>
      Nat.lt_of_lt_of_le (height_lt_object (perm.mem_iff.mp member)) (Nat.lt_succ_iff.mp low)
    obtain ⟨slots, taken, given⟩ := fills.putAll distinct alike lower
    have apart : (members'.map Prod.fst).Nodup := by rwa [Fills.keys_alike alike, fills.keys]
    rw [reading, record, Slots.putAll_perm perm apart taken]
    exact given

/-- What is made of the values of a record is read from their members. -/
theorem ReadsAs.record_succ {fs : List Field} {members : List (String × Json)} {values : Values fs}
    {read : Reader α} {value : α} (fills : Fills bound fs members values) (distinct : (fs.map Field.key).Nodup)
    (made : ∀ r, record fs r = .ok values → read r = .ok value) : (object members).ReadsAs (bound + 1) read value :=
  fun _ alike low => made _ (record_reading fills distinct alike low)

theorem ReadsAs.record {fs : List Field} {members : List (String × Json)} {values : Values fs} {read : Reader α}
    {value : α} (fills : Fills bound fs members values) (distinct : (fs.map Field.key).Nodup)
    (made : ∀ r, Json.record fs r = .ok values → read r = .ok value) : (object members).ReadsAs bound read value :=
  (record_succ fills distinct made).mono (Nat.le_succ bound)

namespace Reader

theorem natural_lt {limit n : Nat} {r : Reading} (run : natural limit r = .ok n) : n < limit := by
  rw [natural.eq_def] at run
  split at run
  · split at run
    · rename_i whole fits
      cases run
      exact (Int.toNat_lt fits.1).mpr fits.2
    · cases run
  · cases run

theorem integer_bounds {n : Int} {r : Reading} (run : integer r = .ok n) :
    -9223372036854775808 ≤ n ∧ n < 9223372036854775808 := by
  rw [integer.eq_def] at run
  split at run
  · split at run
    · rename_i fits
      cases run
      exact fits
    · cases run
  · cases run

theorem of_optional {read : Reader α} {value : α} {r : Reading} (run : read.optional r = .ok (some value)) :
    read r = .ok value := by
  rw [optional.eq_def] at run
  split at run
  · cases run
  · cases given : read r with
    | error => rw [given] at run; cases run
    | ok => rw [given] at run; cases run; rfl

theorem of_mem_list {read : Reader α} {values : List α} {r : Reading} (run : list read r = .ok values)
    {value : α} (member : value ∈ values) : ∃ item, read item = .ok value := by
  rw [list.eq_def] at run
  split at run
  · obtain ⟨_, each, run⟩ := bind_eq_ok.mp run
    obtain ⟨_, _, made⟩ := bind_eq_ok.mp run
    cases made
    obtain ⟨item, _, given⟩ := exists_of_mem_mapM each member
    exact ⟨item, given⟩
  · cases run
  · cases run

end Reader

/-- Each value was read, or stands in for a field that was absent. -/
def Obtained : (fs : List Field) → Values fs → Prop
  | [], _ => True
  | f :: fs, (value, values) => ((∃ r, f.read r = .ok value) ∨ f.absent? = some value) ∧ Obtained fs values

theorem Obtained.required {key : String} {read : Reader α} {fs : List Field} {value : α} {values : Values fs}
    (obtained : Obtained (.required key read :: fs) (value, values)) : ∃ r, read r = .ok value := by
  rcases obtained.1 with given | none
  · exact given
  · cases none

theorem Obtained.default {key : String} {read : Reader α} {absent : α} {fs : List Field} {value : α}
    {values : Values fs} (obtained : Obtained (.default key read absent :: fs) (value, values)) :
    (∃ r, read r = .ok value) ∨ value = absent :=
  obtained.1.imp_right fun same => (Option.some.inj same).symm

/-- What has been taken in so far was read. -/
def Slots.Read : (fs : List Field) → Slots fs → Prop
  | [], _ => True
  | f :: fs, (slot, slots) => (∀ value, slot = some value → ∃ r, f.read r = .ok value) ∧ Slots.Read fs slots

namespace Slots

variable {fs : List Field} {key : String} {r : Reading} {slots after : Slots fs}

theorem read_empty : (fs : List Field) → Slots.Read fs (empty fs)
  | [] => trivial
  | _ :: fs => ⟨nofun, read_empty fs⟩

theorem Read.put (taken : slots.Read) (run : put fs key r slots = .ok after) : after.Read := by
  induction fs with
  | nil => trivial
  | cons f fs ih =>
    obtain ⟨slot, slots⟩ := slots
    obtain ⟨own, others⟩ := taken
    rcases put_cons_eq_ok.mp run with ⟨_, _, value, given, rfl⟩ | ⟨_, rest, later, rfl⟩
    · refine ⟨?_, others⟩
      rintro _ ⟨rfl⟩
      exact ⟨r, given⟩
    · exact ⟨own, ih others later⟩

theorem Read.putAll {members : List (Option String × Reading)} (taken : slots.Read)
    (run : putAll fs members slots = .ok after) : after.Read := by
  induction members generalizing slots with
  | nil =>
    cases run
    exact taken
  | cons m rest ih =>
    obtain ⟨key?, r⟩ := m
    cases key? with
    | none => cases run
    | some key =>
      obtain ⟨between, first, later⟩ := bind_eq_ok.mp run
      exact ih (taken.put first) later

theorem Read.obtained {values : Values fs} (taken : slots.Read) (run : Slots.values fs slots = .ok values) :
    Obtained fs values := by
  induction fs with
  | nil => trivial
  | cons f fs ih =>
    obtain ⟨slot, slots⟩ := slots
    obtain ⟨own, others⟩ := taken
    rw [Slots.values] at run
    split at run
    · cases run
    · rename_i value given
      obtain ⟨later, filled, made⟩ := bind_eq_ok.mp run
      cases made
      refine ⟨?_, ih others filled⟩
      cases slot with
      | none => exact .inr given
      | some => exact .inl (own _ given)

end Slots

theorem obtained_of_inOrder {fs : List Field} {items : List Reading} {fault? : Option Fault} {values : Values fs}
    (run : inOrder fs items fault? = .ok values) : Obtained fs values := by
  induction fs generalizing items with
  | nil => trivial
  | cons f fs ih =>
    cases items with
    | nil =>
      rw [inOrder] at run
      obtain ⟨_, _, run⟩ := bind_eq_ok.mp run
      split at run
      · cases run
      · rename_i value given
        obtain ⟨later, filled, made⟩ := bind_eq_ok.mp run
        cases made
        exact ⟨.inr given, ih filled⟩
    | cons item items =>
      rw [inOrder] at run
      obtain ⟨value, given, run⟩ := bind_eq_ok.mp run
      obtain ⟨later, filled, made⟩ := bind_eq_ok.mp run
      cases made
      exact ⟨.inl ⟨item, given⟩, ih filled⟩

/-- No value of a record comes from nowhere. -/
theorem obtained_of_record {fs : List Field} {r : Reading} {values : Values fs}
    (run : record fs r = .ok values) : Obtained fs values := by
  rw [record.eq_def] at run
  split at run
  · obtain ⟨slots, taken, run⟩ := bind_eq_ok.mp run
    obtain ⟨_, _, run⟩ := bind_eq_ok.mp run
    exact ((Slots.read_empty fs).putAll taken).obtained run
  · exact obtained_of_inOrder run
  · cases run
  · cases run
  · cases run

end Json

end ChatCommands
