import HostBridge.Proofs.Binary.Casting
import HostBridge.Proofs.Binary.Value
import HostBridge.Proofs.Converter.Coincidence
import HostBridge.Proofs.Script.Recovery

/-!
# Numbers where integers are asked for

A number *fits* if its value, rounded toward zero, has 64 bits.  Then it is converted to this
integer, and otherwise to none.  A machine finds out by comparing and casting, which never fails
but can give another integer.  After the comparison it does not, so the conversion is the same
(`wholePart?_eq`).

A table can be asked for at a type that is built over integers.  It is converted exactly if it is
formed as the type is and all numbers in it fit, at any depth, in keys as well as in values
(`fitting_of_integral`).  So one number that does not fit is enough for the whole to have no answer.
An answer has the integer of each number in the place of the number (`truncates_of_toHost`).
-/

namespace HostBridge

open scoped Binary

/-! ## Numbers in a value -/

namespace Script.Value

mutual

/-- The numbers in a value, from left to right. -/
def numbers : Value → List Binary64
  | .number x => [x]
  | .table t => numbersOfEntries t
  | _ => []
termination_by structural v => v

/-- The numbers in entries, those in a key before those in its value. -/
def numbersOfEntries : List (Value × Value) → List Binary64
  | [] => []
  | (k, v) :: rest => (k.numbers ++ v.numbers) ++ numbersOfEntries rest
termination_by structural es => es

end

theorem numbers_table (t : Table) :
    (table t).numbers = t.flatMap fun e => e.1.numbers ++ e.2.numbers := by
  show numbersOfEntries t = _
  induction t with
  | nil => rfl
  | cons e rest ih => rw [numbersOfEntries, ih, List.flatMap_cons]

/-- What holds of all numbers in a table holds of those in its keys and of those in its values. -/
theorem forall_mem_numbers_table {P : Binary64 → Prop} {t : Table} :
    (∀ x ∈ (table t).numbers, P x) ↔
      (∀ e ∈ t, ∀ x ∈ e.1.numbers, P x) ∧ ∀ e ∈ t, ∀ x ∈ e.2.numbers, P x := by
  rw [numbers_table]
  simp only [List.mem_flatMap, List.mem_append]
  constructor
  · intro h
    exact ⟨fun e he x hx => h x ⟨e, he, .inl hx⟩, fun e he x hx => h x ⟨e, he, .inr hx⟩⟩
  · rintro ⟨keys, values⟩ x ⟨e, he, hx | hx⟩
    · exact keys e he x hx
    · exact values e he x hx

end Script.Value

/-! ## Numbers that fit -/

namespace Binary

variable {x : Binary64}

/-- The number is finite, and its value rounded toward zero has 64 bits. -/
def Fits (x : Binary64) : Prop :=
  ∃ q, x.meaning = .rational q ∧
    -(2 ^ (63 : Nat) : Int) ≤ towardZero q ∧ towardZero q ≤ 2 ^ (63 : Nat) - 1

theorem fits_iff : Fits x ↔ ∃ i, x.truncate? = some i ∧ Host.Width.int64.Holds i := by
  simp only [truncate?_eq_some_iff bias_pos]
  constructor
  · rintro ⟨q, hq, word⟩
    exact ⟨_, ⟨q, hq, rfl⟩, word⟩
  · rintro ⟨_, ⟨q, hq, rfl⟩, word⟩
    exact ⟨q, hq, word⟩

end Binary

/-! ## Types over integers -/

/-- The type is built from arrays, lists, sets and maps over integers. -/
inductive Host.Ty.Integral : Host.Ty → Prop where
  | integer : Integral .integer
  | array {e : Host.Ty} (h : Integral e) : Integral (.array e)
  | list {e : Host.Ty} (h : Integral e) : Integral (.list e)
  | set {e : Host.Ty} (h : Integral e) : Integral (.set e)
  | map {key val : Host.Ty} (hk : Integral key) (hv : Integral val) : Integral (.map key val)

namespace Converter.Standard

open Script (Table)

/-- The value has numbers where the type has integers, and tables where it has parts.  The keys of
a table number its entries where the type has items. -/
def FormedAs : Host.Ty → Script.Value → Prop
  | .integer, .number _ => True
  | .array e, .table t => Table.Counts t ∧ ∀ d ∈ t, FormedAs e d.2
  | .list e, .table t => Table.Counts t ∧ ∀ d ∈ t, FormedAs e d.2
  | .set e, .table t => Table.Counts t ∧ ∀ d ∈ t, FormedAs e d.2
  | .map key val, .table t => (∀ d ∈ t, FormedAs key d.1) ∧ ∀ d ∈ t, FormedAs val d.2
  | _, _ => False

/-- Each entry has an item in the place of its number. -/
def Placed (P : Script.Value → Host.Value → Prop) (t : Table) (items : List Host.Value) : Prop :=
  items.length = t.length ∧
    ∀ d ∈ t, ∃ i r, d.1.integer? = some ((i + 1 : Nat) : Int) ∧ items[i]? = some r ∧ P d.2 r

/-- The second value is the first with each number rounded toward zero. -/
def Truncates : Host.Ty → Script.Value → Host.Value → Prop
  | .integer, .number x, .integer n => ∃ q, x.meaning = .rational q ∧ towardZero q = n.toInt
  | .array e, .table t, .array items => Placed (Truncates e) t items
  | .list e, .table t, .list items => Placed (Truncates e) t items
  | .set e, .table t, .list items => Placed (Truncates e) t items
  | .map key val, .table t, .map entries =>
      List.Forall₂ (fun d r => Truncates key d.1 r.1 ∧ Truncates val d.2 r.2) t entries
  | _, _, _ => False

variable {t : Table} {v : Script.Value} {ty e key val : Host.Ty} {r : Host.Value} {x : Binary64}
  {n : Int64}

/-! ## One number -/

theorem wholePart?_eq_some_iff : wholePart? x = some n ↔ x.truncate? = some n.toInt := by
  constructor
  · exact toInt_of_wholePart?
  · intro h
    rw [wholePart?, h, Option.bind_eq_bind, Option.bind_some, if_pos (Host.Width.holds_toInt n),
      Int64.ofInt_toInt]

/-- The whole part is what the guarded cast gives. -/
theorem wholePart?_eq (x : Binary64) : wholePart? x = x.guarded? :=
  Option.ext fun _ => wholePart?_eq_some_iff.trans Binary.guarded?_eq_some_iff.symm

theorem exists_wholePart?_iff : (∃ n, wholePart? x = some n) ↔ x.Fits := by
  simp only [wholePart?_eq_some_iff, Binary.fits_iff]
  constructor
  · rintro ⟨n, h⟩
    exact ⟨_, h, Host.Width.holds_toInt n⟩
  · rintro ⟨i, h, word⟩
    exact ⟨.ofInt i, by rw [h, Host.Width.toInt_ofInt word]⟩

instance : DecidablePred Binary.Fits := fun x =>
  decidable_of_iff ((wholePart? x).isSome = true) (by
    rw [Option.isSome_iff_exists, exists_wholePart?_iff])

/-! ## Tables -/

/-- The keys that number a sequence fit. -/
theorem fits_of_key {vs : List Script.Value} (h : Table.sequence? t = some vs) :
    ∀ d ∈ t, ∀ x ∈ d.1.numbers, x.Fits := by
  intro d hd x hx
  obtain ⟨js, sequence⟩ := Table.isSequence_of_sequence? h
  obtain ⟨j, slot, -⟩ := sequence.exists_place hd
  obtain ⟨y, key, integer, hj⟩ := Table.slot?_eq_some_iff.mp slot
  rw [key, Script.Value.numbers, List.mem_singleton] at hx
  have few : t.length ≤ 2 ^ (53 : Nat) := Table.length_le_places h
  refine Binary.fits_iff.mpr ⟨_, Binary.truncate?_of_toInt? (hx ▸ integer), ?_, ?_⟩
  · exact Int.le_trans (by decide) (Int.natCast_nonneg _)
  · show _ ≤ (0x7fffffffffffffff : Int)
    omega

/-- At the type a value has an answer exactly if it is formed as the type is and all its numbers
fit. -/
def Fitting (ty : Host.Ty) : Prop :=
  ∀ v, (∃ r, toHost [] v ty = some r) ↔ FormedAs ty v ∧ ∀ x ∈ v.numbers, Binary.Fits x

theorem exists_toHostItems_iff (ih : Fitting e) :
    (∃ rs, toHostItems [] t e = some rs) ↔
      (Table.Counts t ∧ ∀ d ∈ t, FormedAs e d.2) ∧
        ∀ x ∈ (Script.Value.table t).numbers, x.Fits := by
  rw [Script.Value.forall_mem_numbers_table]
  constructor
  · rintro ⟨rs, h⟩
    obtain ⟨vs, hs, converted⟩ := toHostItems_eq_some_iff.mp h
    obtain ⟨js, sequence⟩ := Table.isSequence_of_sequence? hs
    have value : ∀ d ∈ t, FormedAs e d.2 ∧ ∀ x ∈ d.2.numbers, x.Fits := by
      intro d hd
      obtain ⟨j, -, hj⟩ := sequence.exists_place hd
      obtain ⟨r, -, hr⟩ := exists_getElem?_of_forall₂ converted hj
      exact (ih d.2).mp ⟨r, hr⟩
    exact ⟨⟨sequence.counts, fun d hd => (value d hd).1⟩, fits_of_key hs,
      fun d hd => (value d hd).2⟩
  · rintro ⟨⟨counts, formed⟩, -, fit⟩
    obtain ⟨vs, hs⟩ := Table.exists_sequence?_iff.mpr counts
    have each : ∀ v ∈ vs, ∃ r, toHost [] v e = some r := by
      intro v hv
      obtain ⟨k, hk⟩ := Table.mem_of_sequence? hs hv
      exact (ih v).mpr ⟨formed _ hk, fit _ hk⟩
    obtain ⟨rs, converted⟩ := exists_forall₂ each
    exact ⟨rs, toHostItems_eq_some_iff.mpr ⟨vs, hs, converted⟩⟩

theorem exists_entries_iff (keys : Fitting key) (values : Fitting val) :
    (∃ rs, List.Forall₂ (ConvertsEntry key val) t rs) ↔
      ((∀ d ∈ t, FormedAs key d.1) ∧ ∀ d ∈ t, FormedAs val d.2) ∧
        ∀ x ∈ (Script.Value.table t).numbers, x.Fits := by
  rw [Script.Value.forall_mem_numbers_table]
  constructor
  · rintro ⟨rs, converted⟩
    have entry : ∀ d ∈ t, (FormedAs key d.1 ∧ ∀ x ∈ d.1.numbers, x.Fits) ∧
        FormedAs val d.2 ∧ ∀ x ∈ d.2.numbers, x.Fits := by
      intro d hd
      obtain ⟨r, -, hk, hv⟩ := exists_mem_of_forall₂ converted.flip hd
      exact ⟨(keys d.1).mp ⟨_, hk⟩, (values d.2).mp ⟨_, hv⟩⟩
    exact ⟨⟨fun d hd => (entry d hd).1.1, fun d hd => (entry d hd).2.1⟩,
      fun d hd => (entry d hd).1.2, fun d hd => (entry d hd).2.2⟩
  · rintro ⟨⟨formed, formed'⟩, fit, fit'⟩
    refine exists_forall₂ fun d hd => ?_
    obtain ⟨k, hk⟩ := (keys d.1).mpr ⟨formed d hd, fit d hd⟩
    obtain ⟨v, hv⟩ := (values d.2).mpr ⟨formed' d hd, fit' d hd⟩
    exact ⟨(k, v), hk, hv⟩

/-- At a type with items there is an answer for tables with answers for all items. -/
theorem exists_toHost_items_iff (he : ItemType ty e) (other : ty ≠ .any) :
    (∃ r, toHost [] v ty = some r) ↔
      ∃ t, v = .table t ∧ ∃ items, toHostItems [] t e = some items := by
  simp only [toHost_eq_some_iff]
  constructor
  · rintro ⟨r, h⟩
    cases h with
    | array items =>
        cases he
        exact ⟨_, rfl, _, items⟩
    | list items =>
        cases he
        exact ⟨_, rfl, _, items⟩
    | set items =>
        cases he
        exact ⟨_, rfl, _, items⟩
    | any => exact absurd rfl other
    | _ => cases he
  · rintro ⟨t, rfl, items, h⟩
    cases he with
    | array => exact ⟨_, .array h⟩
    | list => exact ⟨_, .list h⟩
    | set => exact ⟨_, .set h⟩
    | any => exact absurd rfl other

theorem formedAs_items_iff (he : ItemType ty e) (other : ty ≠ .any) :
    FormedAs ty v ↔ ∃ t, v = .table t ∧ Table.Counts t ∧ ∀ d ∈ t, FormedAs e d.2 := by
  cases he with
  | any => exact absurd rfl other
  | _ => cases v <;> simp [FormedAs]

theorem Fitting.items (ih : Fitting e) (he : ItemType ty e) (other : ty ≠ .any) : Fitting ty := by
  intro v
  rw [exists_toHost_items_iff he other, formedAs_items_iff he other]
  constructor
  · rintro ⟨t, rfl, h⟩
    obtain ⟨formed, fit⟩ := (exists_toHostItems_iff ih).mp h
    exact ⟨⟨t, rfl, formed⟩, fit⟩
  · rintro ⟨⟨t, rfl, formed⟩, fit⟩
    exact ⟨t, rfl, (exists_toHostItems_iff ih).mpr ⟨formed, fit⟩⟩

theorem Fitting.map (keys : Fitting key) (values : Fitting val) : Fitting (.map key val) := by
  intro v
  constructor
  · rintro ⟨r, h⟩
    cases toHost_eq_some_iff.mp h with
    | map entries => exact (exists_entries_iff keys values).mp ⟨_, entries⟩
  · intro h
    cases v with
    | table t =>
        obtain ⟨rs, entries⟩ := (exists_entries_iff keys values).mpr h
        exact ⟨_, toHost_map_iff.mpr entries⟩
    | _ => exact h.1.elim

theorem fitting_integer : Fitting .integer := by
  intro v
  constructor
  · rintro ⟨r, h⟩
    cases toHost_eq_some_iff.mp h with
    | integer whole =>
        exact ⟨trivial, List.forall_mem_singleton.mpr (exists_wholePart?_iff.mp ⟨_, whole⟩)⟩
  · rintro ⟨formed, fit⟩
    cases v with
    | number x =>
        obtain ⟨n, whole⟩ := exists_wholePart?_iff.mpr (fit x (List.mem_singleton_self x))
        exact ⟨_, toHost_eq_some_iff.mpr (.integer whole)⟩
    | _ => exact formed.elim

/-- At a type over integers a value has an answer exactly if it is formed as the type is and all
its numbers fit. -/
theorem fitting_of_integral (h : ty.Integral) : Fitting ty := by
  induction h with
  | integer => exact fitting_integer
  | array _ ih => exact ih.items (.array _) nofun
  | list _ ih => exact ih.items (.list _) nofun
  | set _ ih => exact ih.items (.set _) nofun
  | map _ _ keys values => exact keys.map values

/-! ## Answers -/

theorem placed_of_toHostItems (ih : ∀ v r, toHost [] v e = some r → Truncates e v r)
    {items : List Host.Value} (h : toHostItems [] t e = some items) :
    Placed (Truncates e) t items := by
  obtain ⟨vs, hs, converted⟩ := toHostItems_eq_some_iff.mp h
  obtain ⟨js, sequence⟩ := Table.isSequence_of_sequence? hs
  refine ⟨converted.length_eq ▸ sequence.length_eq, fun d hd => ?_⟩
  obtain ⟨j, slot, hj⟩ := sequence.exists_place hd
  obtain ⟨r, place, hr⟩ := exists_getElem?_of_forall₂ converted hj
  exact ⟨j, r, (Table.slot?_eq_some_iff_integer?.mp slot).1, place, ih _ _ hr⟩

/-- An answer has each number of the value rounded toward zero, and in its place. -/
theorem truncates_of_toHost (hty : ty.Integral) :
    ∀ v r, toHost [] v ty = some r → Truncates ty v r := by
  induction hty with
  | integer =>
      intro v r h
      cases toHost_eq_some_iff.mp h with
      | integer whole =>
          exact (Binary.truncate?_eq_some_iff Binary.bias_pos).mp (wholePart?_eq_some_iff.mp whole)
  | array _ ih =>
      intro v r h
      cases toHost_eq_some_iff.mp h with
      | array items => exact placed_of_toHostItems ih items
  | list _ ih =>
      intro v r h
      cases toHost_eq_some_iff.mp h with
      | list items => exact placed_of_toHostItems ih items
  | set _ ih =>
      intro v r h
      cases toHost_eq_some_iff.mp h with
      | set items => exact placed_of_toHostItems ih items
  | map _ _ keys values =>
      intro v r h
      cases toHost_eq_some_iff.mp h with
      | map entries => exact entries.imp fun d r h => ⟨keys _ _ h.1, values _ _ h.2⟩

theorem toHost_integer (x : Binary64) :
    toHost [] (.number x) .integer = (wholePart? x).map .integer := by
  rw [toHost.eq_def]
  rfl

/-- A number is converted to an integer exactly if it is finite and its value rounded toward zero
has 64 bits, and then to this integer.  To compare the number with the bounds and cast it gives
the same.  A value is converted to a type over integers exactly if it is formed as the type is and
all numbers in it convert, each to the integer in its place.  One number that does not is enough
for the whole to have no answer. -/
theorem integers_exact :
    (∀ x : Binary64,
      ((∃ n, (Converter.standard []).toHost (.number x) .integer = some (.integer n)) ↔ x.Fits) ∧
      (∀ n, (Converter.standard []).toHost (.number x) .integer = some (.integer n) ↔
        ∃ q, x.meaning = .rational q ∧ towardZero q = n.toInt) ∧
      (Converter.standard []).toHost (.number x) .integer = x.guarded?.map .integer) ∧
    ∀ (ty : Host.Ty) (v : Script.Value), ty.Integral →
      ((∃ r, (Converter.standard []).toHost v ty = some r) ↔
        FormedAs ty v ∧ ∀ x ∈ v.numbers, x.Fits) ∧
      (∀ r, (Converter.standard []).toHost v ty = some r → Truncates ty v r) ∧
      ∀ x ∈ v.numbers, ¬ x.Fits → (Converter.standard []).toHost v ty = none := by
  constructor
  · intro x
    have answer (n : Int64) : toHost [] (.number x) .integer = some (.integer n) ↔
        wholePart? x = some n := by
      rw [toHost_integer, Option.map_eq_some_iff]
      simp only [Host.Value.integer.injEq, exists_eq_right]
    refine ⟨(exists_congr answer).trans exists_wholePart?_iff, fun n => ?_, ?_⟩
    · exact (answer n).trans
        (wholePart?_eq_some_iff.trans (Binary.truncate?_eq_some_iff Binary.bias_pos))
    · exact wholePart?_eq x ▸ toHost_integer x
  · intro ty v integral
    have fitting := fitting_of_integral integral v
    refine ⟨fitting, truncates_of_toHost integral v, fun x hx misfit => ?_⟩
    refine Option.eq_none_iff_forall_ne_some.mpr fun r h => misfit ?_
    exact (fitting.mp ⟨r, h⟩).2 x hx

/-- Two ranks of an organ: at the number 2.9 a sequence of the number -2.9 and another one. -/
def ranks (x : Binary64) : Script.Value :=
  .table [(.number (.ofBits 0x4007333333333333),
    .table [(.ofInt 2, .number x), (.ofInt 1, .number (.ofBits 0xc007333333333333))])]

/-- The least integer of 64 bits. -/
def lowest : Binary64 := .ofBits 0xc3e0000000000000

/-- The greatest integer of 64 bits, which is rounded up. -/
def roundedUp : Binary64 := .ofInt Host.Width.int64.greatest

/-- The ranks are converted with the least integer, but not with the greatest. -/
theorem integers_exact_ranks :
    let ty : Host.Ty := .map .integer (.list .integer)
    (ty.Integral ∧ ∃ r, (Converter.standard []).toHost (ranks lowest) ty = some r ∧
      Truncates ty (ranks lowest) r) ∧
    (roundedUp ∈ (ranks roundedUp).numbers ∧ ¬ roundedUp.Fits) ∧
      (Converter.standard []).toHost (ranks roundedUp) ty = none := by
  intro ty
  have integral : ty.Integral := .map .integer (.list .integer)
  have formed : FormedAs ty (ranks lowest) := by
    refine ⟨List.forall_mem_singleton.mpr trivial, List.forall_mem_singleton.mpr ⟨?_, ?_⟩⟩
    · decide +kernel
    · exact List.forall_mem_cons.mpr ⟨trivial, List.forall_mem_singleton.mpr trivial⟩
  have inside : roundedUp ∈ (ranks roundedUp).numbers := by decide +kernel
  have misfit : ¬ roundedUp.Fits := by decide +kernel
  obtain ⟨answer, truncates, -⟩ := integers_exact.2 ty (ranks lowest) integral
  obtain ⟨r, h⟩ := answer.mpr ⟨formed, by decide +kernel⟩
  exact ⟨⟨integral, r, h, truncates r h⟩, ⟨inside, misfit⟩,
    (integers_exact.2 ty (ranks roundedUp) integral).2.2 roundedUp inside misfit⟩

end Converter.Standard

end HostBridge
