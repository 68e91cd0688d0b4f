import HostBridge.Proofs.Binary.Exactness
import HostBridge.Script.Value

/-!
# Reading sequences back

A table made from a list of values is a sequence, and reads as the list.  The keys of the
table are numbers, and they tell places apart as long as the numbers count exactly.  No
table with more entries is a sequence, whatever its keys are.
-/

namespace HostBridge.Script.Table

open scoped Binary

/-- The number of places that keys tell apart. -/
def places : Nat := 2 ^ (53 : Nat)

theorem toInt?_ofInt {i : Nat} (h : i ≤ places) :
    (Binary.ofInt i : Binary64).toInt? = some (i : Int) := by
  refine Binary.toInt?_ofInt (by decide +kernel) ?_
  rw [Int.natAbs_natCast]
  exact h

theorem slot?_number (length : Nat) (x : Binary64) :
    slot? length (.number x) =
      x.toInt?.bind fun i => if 1 ≤ i ∧ i ≤ length then some (i - 1).toNat else none := rfl

theorem slot?_ofInt {length k : Nat} (hk : k < length) (hl : length ≤ places) :
    slot? length (.ofInt (k + 1 : Nat)) = some k := by
  rw [Value.ofInt, slot?_number, toInt?_ofInt (Nat.le_trans hk hl), Option.bind_some,
    if_pos (by omega)]
  congr 1
  omega

/-- An entry is put into the slot of its key before the others are. -/
theorem fill_cons_eq_some_iff {e : Value × Value} {rest : Table}
    {slots slots' : List (Option Value)} :
    fill slots (e :: rest) = some slots' ↔
      ∃ j, slot? slots.length e.1 = some j ∧ fill (slots.set j (some e.2)) rest = some slots' := by
  rw [fill]
  cases slot? slots.length e.1 with
  | none => simp only [reduceCtorEq, false_and, exists_false]
  | some j => simp only [Option.some.injEq, exists_eq_left']

/-- The entries of a sequence fill the slots from the first empty one on. -/
theorem fill_sequenceFrom (before rest : List Value)
    (h : before.length + rest.length ≤ places) :
    fill (before.map some ++ List.replicate rest.length none)
      (sequenceFrom (before.length + 1) rest) = some ((before ++ rest).map some) := by
  induction rest generalizing before with
  | nil => simp [sequenceFrom, fill]
  | cons v rest ih =>
      rw [List.length_cons] at h
      have slot : slot? (before.map some ++ List.replicate (v :: rest).length none).length
          (.ofInt (before.length + 1 : Nat)) = some before.length := by
        apply slot?_ofInt
        · simp
        · simpa using h
      have later := ih (before ++ [v]) (by simp; omega)
      rw [sequenceFrom, fill_cons_eq_some_iff]
      refine ⟨before.length, slot, ?_⟩
      simpa [List.replicate_succ, List.set_append_right] using later

theorem allFilled_map_some (values : List Value) : allFilled (values.map some) = some values := by
  induction values with
  | nil => rfl
  | cons v rest ih => rw [List.map_cons, allFilled, ih, Option.map_some]

theorem none_not_mem_of_allFilled {slots : List (Option Value)} {values : List Value}
    (h : allFilled slots = some values) : none ∉ slots := by
  induction slots generalizing values with
  | nil => exact List.not_mem_nil
  | cons s rest ih =>
      cases s with
      | none => cases h
      | some v =>
          obtain ⟨vs, hvs, -⟩ := Option.map_eq_some_iff.mp h
          rw [List.mem_cons, not_or]
          exact ⟨nofun, ih hvs⟩

theorem length_sequenceFrom (i : Nat) (values : List Value) :
    (sequenceFrom i values).length = values.length := by
  induction values generalizing i with
  | nil => rfl
  | cons v rest ih => rw [sequenceFrom, List.length_cons, ih, List.length_cons]

/-- The keys are the numbers from the first place on. -/
theorem map_fst_sequenceFrom (i : Nat) (values : List Value) :
    (sequenceFrom i values).map Prod.fst =
      (List.range' i values.length).map fun j => .ofInt (j : Nat) := by
  induction values generalizing i with
  | nil => rfl
  | cons v rest ih => rw [sequenceFrom, List.map_cons, ih, List.length_cons, List.range'_succ,
      List.map_cons]

/-- A sequence of values reads as the values. -/
theorem sequence?_ofSequence {values : List Value} (h : values.length ≤ places) :
    sequence? (ofSequence values) = some values := by
  have filled := fill_sequenceFrom [] values (by simpa using h)
  rw [sequence?, ofSequence, length_sequenceFrom]
  rw [List.map_nil, List.nil_append, List.nil_append, List.length_nil] at filled
  rw [filled]
  exact allFilled_map_some values

/-! ## Tables with too many entries -/

/-- No key stands for the place after those that keys tell apart. -/
theorem slot?_ne_places (length : Nat) (k : Value) : slot? length k ≠ some places := by
  intro h
  obtain ⟨x, hx, h⟩ := Option.bind_eq_some_iff.mp h
  obtain ⟨i, hi, h⟩ := Option.bind_eq_some_iff.mp h
  split at h
  · have last : i = (places + 1 : Nat) := by
      have := Option.some.inj h
      omega
    exact x.toInt?_ne (last ▸ hi)
  · cases h

/-- A slot that no key stands for stays as it is. -/
theorem getElem?_of_fill {es : Table} {slots slots' : List (Option Value)} {i : Nat}
    (hi : ∀ e ∈ es, slot? slots.length e.1 ≠ some i) (h : fill slots es = some slots') :
    slots'[i]? = slots[i]? := by
  induction es generalizing slots with
  | nil =>
      cases h
      rfl
  | cons e rest ih =>
      obtain ⟨other, later⟩ := List.forall_mem_cons.mp hi
      obtain ⟨j, hj, h⟩ := fill_cons_eq_some_iff.mp h
      have ne : j ≠ i := fun same => other (same ▸ hj)
      rw [ih (by rwa [List.length_set]) h, List.getElem?_set_ne ne]

/-- A table with more entries than keys tell apart is no sequence. -/
theorem sequence?_of_places_lt {t : Table} (h : places < t.length) : sequence? t = none := by
  rw [sequence?]
  cases hf : fill (List.replicate t.length none) t with
  | none => rfl
  | some slots =>
      have empty : slots[places]? = some none := by
        rw [getElem?_of_fill (fun e _ => slot?_ne_places _ e.1) hf]
        exact List.getElem?_replicate_of_lt h
      rw [Option.bind_some]
      cases ha : allFilled slots with
      | none => rfl
      | some values => exact absurd (List.mem_of_getElem? empty) (none_not_mem_of_allFilled ha)

theorem length_le_places {t : Table} {values : List Value} (h : sequence? t = some values) :
    t.length ≤ places := by
  refine Decidable.byContradiction fun many => ?_
  cases h.symm.trans (sequence?_of_places_lt (Nat.lt_of_not_le many))

/-- A sequence of values reads as the values exactly if keys tell its places apart. -/
theorem sequence?_ofSequence_eq (values : List Value) :
    sequence? (ofSequence values) = if values.length ≤ places then some values else none := by
  split
  · exact sequence?_ofSequence ‹_›
  · rename_i many
    refine sequence?_of_places_lt ?_
    rw [ofSequence, length_sequenceFrom]
    exact Nat.lt_of_not_le many

end HostBridge.Script.Table
