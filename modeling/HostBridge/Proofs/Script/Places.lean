import Mathlib.Data.List.Perm.Subperm
import HostBridge.Proofs.Binary.Representation
import HostBridge.Proofs.Running
import HostBridge.Proofs.Script.Sequence
import HostBridge.Proofs.Script.Writing

/-!
# The places of a sequence

The key of a place is one number, and equality of scripts tells it from all other keys
(`equal_iff_of_slot?`).  To read a table as a sequence puts as many values as there are
places into these.  If no place stays empty, no place was written twice, so the keys are
the numbers of the places in some order (`isSequence_of_sequence?`).  To look a key up is
then to take the value at its place (`IsSequence.get?_eq`).
-/

namespace HostBridge.Script.Table

open scoped Binary

variable {t : Table} {vs : List Value} {n i j : Nat} {k k' : Value}

/-! ## The key of a place -/

theorem one_lt_topExponent : 1 < Binary.Format.double.topExponent := by decide +kernel

theorem slot?_eq_some_iff :
    slot? n k = some j ↔
      ∃ x, k = .number x ∧ x.toInt? = some ((j + 1 : Nat) : Int) ∧ j < n := by
  constructor
  · intro h
    obtain ⟨x, hx, h⟩ := Option.bind_eq_some_iff.mp h
    obtain ⟨i, hi, h⟩ := Option.bind_eq_some_iff.mp h
    have key : k = .number x := by
      cases k <;> cases hx
      rfl
    split at h
    · have place := Option.some.inj h
      refine ⟨x, key, ?_, by omega⟩
      rw [hi]
      congr 1
      omega
    · cases h
  · rintro ⟨x, rfl, hi, hj⟩
    rw [slot?_number, hi, Option.bind_some, if_pos (by omega)]
    congr 1
    omega

theorem slot?_lt (h : slot? n k = some j) : j < n := by
  obtain ⟨-, -, -, hj⟩ := slot?_eq_some_iff.mp h
  exact hj

theorem natCast_succ_ne_zero (j : Nat) : ((j + 1 : Nat) : Int) ≠ 0 :=
  Int.natCast_ne_zero.mpr j.succ_ne_zero

/-- The key of a place is its number, counted from one. -/
theorem ofInt_of_slot? (h : slot? n k = some j) : .ofInt (j + 1 : Nat) = k := by
  obtain ⟨x, rfl, hi, -⟩ := slot?_eq_some_iff.mp h
  exact congrArg _ (Binary.ofInt_of_toInt? one_lt_topExponent hi (natCast_succ_ne_zero j))

/-- Keys of places are equal if they are of one place. -/
theorem equal_iff_of_slot? (h : slot? n k = some j) :
    k.equal k' = true ↔ slot? n k' = some j := by
  obtain ⟨x, rfl, hi, hj⟩ := slot?_eq_some_iff.mp h
  have unequal : k'.number? = none → (Value.number x).equal k' = false ∧ slot? n k' = none := by
    intro other
    refine ⟨?_, by rw [slot?, other]; rfl⟩
    cases k' <;> first | rfl | cases other
  cases k' with
  | number y =>
      show x.equal y = true ↔ _
      rw [Binary.equal_iff_of_toInt? hi (natCast_succ_ne_zero j)]
      constructor
      · rintro rfl
        exact h
      · intro h'
        exact Value.number.inj ((ofInt_of_slot? h).symm.trans (ofInt_of_slot? h'))
  | _ =>
      obtain ⟨no, none⟩ := unequal rfl
      rw [no, none]
      exact ⟨nofun, nofun⟩

/-! ## Filling -/

theorem allFilled_eq_some_iff {slots : List (Option Value)} :
    allFilled slots = some vs ↔ slots = vs.map some := by
  constructor
  · intro h
    induction slots generalizing vs with
    | nil =>
        cases h
        rfl
    | cons s rest ih =>
        cases s with
        | none => cases h
        | some v =>
            obtain ⟨ws, hws, rfl⟩ := Option.map_eq_some_iff.mp h
            rw [List.map_cons, ih hws]
  · rintro rfl
    exact allFilled_map_some vs

theorem exists_allFilled {slots : List (Option Value)} (h : none ∉ slots) :
    ∃ vs, allFilled slots = some vs := by
  induction slots with
  | nil => exact ⟨[], rfl⟩
  | cons s rest ih =>
      rw [List.mem_cons, not_or] at h
      cases s with
      | none => exact absurd rfl h.1
      | some v =>
          obtain ⟨vs, hvs⟩ := ih h.2
          exact ⟨v :: vs, Option.map_eq_some_iff.mpr ⟨vs, hvs, rfl⟩⟩

theorem length_of_fill {slots slots' : List (Option Value)} (h : fill slots t = some slots') :
    slots'.length = slots.length := by
  induction t generalizing slots with
  | nil =>
      cases h
      rfl
  | cons e rest ih =>
      obtain ⟨j, -, h⟩ := fill_cons_eq_some_iff.mp h
      rw [ih h, List.length_set]

/-- Every entry has a place if they were all put into places. -/
theorem exists_slots_of_fill {slots slots' : List (Option Value)}
    (h : fill slots t = some slots') :
    ∃ js, List.Forall₂ (fun e j => slot? slots.length e.1 = some j) t js := by
  induction t generalizing slots with
  | nil => exact ⟨[], .nil⟩
  | cons e rest ih =>
      obtain ⟨j, hj, h⟩ := fill_cons_eq_some_iff.mp h
      obtain ⟨js, hjs⟩ := ih h
      rw [List.length_set] at hjs
      exact ⟨j :: js, .cons hj hjs⟩

theorem exists_fill {slots : List (Option Value)} {js : List Nat} (hl : slots.length = n)
    (h : List.Forall₂ (fun e j => slot? n e.1 = some j) t js) :
    ∃ slots', fill slots t = some slots' := by
  induction h generalizing slots with
  | nil => exact ⟨slots, rfl⟩
  | @cons e j rest js hj _ ih =>
      have same : (slots.set j (some e.2)).length = n := by rwa [List.length_set]
      obtain ⟨slots', h⟩ := ih same
      exact ⟨slots', fill_cons_eq_some_iff.mpr ⟨j, hl.symm ▸ hj, h⟩⟩

/-- Where no place has two entries, each entry stays at its place. -/
theorem getElem?_of_fill_of_nodup {slots slots' : List (Option Value)} {js : List Nat}
    (hl : slots.length = n) (hjs : List.Forall₂ (fun e j => slot? n e.1 = some j) t js)
    (nodup : js.Nodup) (h : fill slots t = some slots') :
    List.Forall₂ (fun (e : Value × Value) j => slots'[j]? = some (some e.2)) t js := by
  induction hjs generalizing slots with
  | nil => exact .nil
  | @cons e j rest js hj hrest ih =>
      obtain ⟨absent, nodup⟩ := List.nodup_cons.mp nodup
      obtain ⟨j', hj', h⟩ := fill_cons_eq_some_iff.mp h
      rw [hl] at hj'
      cases hj.symm.trans hj'
      have kept : slots'[j]? = (slots.set j (some e.2))[j]? := by
        refine getElem?_of_fill (fun e' he' same => absent ?_) h
        rw [List.length_set, hl] at same
        obtain ⟨j', hj', here⟩ := exists_mem_of_forall₂ hrest.flip he'
        cases same.symm.trans here
        exact hj'
      refine .cons ?_ (ih (by rwa [List.length_set]) nodup h)
      rw [kept, List.getElem?_set_self (hl ▸ slot?_lt hj)]

/-! ## Sequences -/

/-- The table is a sequence of the values: its keys are those of the places in some order,
and each value is at the place of its key. -/
structure IsSequence (t : Table) (vs : List Value) (places : List Nat) : Prop where
  length_eq : vs.length = t.length
  perm : places.Perm (List.range t.length)
  slots : List.Forall₂ (fun e j => slot? t.length e.1 = some j) t places
  values : List.Forall₂ (fun (e : Value × Value) j => vs[j]? = some e.2) t places

theorem isSequence_of_sequence? (h : sequence? t = some vs) : ∃ js, IsSequence t vs js := by
  obtain ⟨slots, filled, all⟩ := Option.bind_eq_some_iff.mp h
  have empty : (List.replicate t.length (none : Option Value)).length = t.length :=
    List.length_replicate
  obtain ⟨js, hjs⟩ := exists_slots_of_fill filled
  rw [empty] at hjs
  -- There are as many entries as places, and no place is left empty.
  have onto : List.range t.length ⊆ js := by
    intro j hj
    by_contra missing
    have kept : slots[j]? = (List.replicate t.length none)[j]? := by
      refine getElem?_of_fill (fun e he here => missing ?_) filled
      rw [empty] at here
      obtain ⟨j', hj', here'⟩ := exists_mem_of_forall₂ hjs.flip he
      cases here.symm.trans here'
      exact hj'
    rw [List.getElem?_replicate_of_lt (List.mem_range.mp hj)] at kept
    exact none_not_mem_of_allFilled all (List.mem_of_getElem? kept)
  have perm : js.Perm (List.range t.length) := by
    have sub : (List.range t.length).Subperm js := List.subperm_of_subset List.nodup_range onto
    have counted := hjs.length_eq.symm.trans List.length_range.symm
    exact (sub.perm_of_length_le (Nat.le_of_eq counted)).symm
  have nodup : js.Nodup := perm.nodup_iff.mpr List.nodup_range
  have values := getElem?_of_fill_of_nodup empty hjs nodup filled
  obtain rfl := allFilled_eq_some_iff.mp all
  refine ⟨js, ?_, perm, hjs, values.imp fun e j hj => ?_⟩
  · rw [← List.length_map (f := some), length_of_fill filled, empty]
  · rw [List.getElem?_map] at hj
    obtain ⟨v, hv, same⟩ := Option.map_eq_some_iff.mp hj
    rw [hv, Option.some.inj same]

/-- As many values as a sequence has make a sequence. -/
theorem sequence?_ofSequence_of_length {ws : List Value} (h : sequence? t = some vs)
    (length : vs.length = ws.length) : sequence? (ofSequence ws) = some ws := by
  obtain ⟨js, sequence⟩ := isSequence_of_sequence? h
  refine sequence?_ofSequence ?_
  rw [← length, sequence.length_eq]
  exact length_le_places h

/-- A table whose keys are those of the places is a sequence. -/
theorem exists_sequence? {js : List Nat} (perm : js.Perm (List.range t.length))
    (hjs : List.Forall₂ (fun e j => slot? t.length e.1 = some j) t js) :
    ∃ vs, sequence? t = some vs := by
  have empty : (List.replicate t.length (none : Option Value)).length = t.length :=
    List.length_replicate
  obtain ⟨slots, filled⟩ := exists_fill empty hjs
  have placed :=
    getElem?_of_fill_of_nodup empty hjs (perm.nodup_iff.mpr List.nodup_range) filled
  have full : none ∉ slots := by
    intro hole
    obtain ⟨j, hj⟩ := List.mem_iff_getElem?.mp hole
    have place : j ∈ js := by
      rw [perm.mem_iff, List.mem_range, ← empty, ← length_of_fill filled]
      exact (List.getElem?_eq_some_iff.mp hj).1
    obtain ⟨e, -, here⟩ := exists_mem_of_forall₂ placed place
    cases hj.symm.trans here
  obtain ⟨vs, all⟩ := exists_allFilled full
  exact ⟨vs, Option.bind_eq_some_iff.mpr ⟨slots, filled, all⟩⟩

namespace IsSequence

variable {js : List Nat}

/-- An entry is at the place of its key. -/
theorem exists_place (h : IsSequence t vs js) {e : Value × Value} (he : e ∈ t) :
    ∃ j, slot? t.length e.1 = some j ∧ vs[j]? = some e.2 := by
  obtain ⟨i, hi⟩ := List.mem_iff_getElem?.mp he
  obtain ⟨j, hj, slot⟩ := exists_getElem?_of_forall₂ h.slots hi
  obtain ⟨j', hj', value⟩ := exists_getElem?_of_forall₂ h.values hi
  cases hj.symm.trans hj'
  exact ⟨j, slot, value⟩

/-- Every place has an entry. -/
theorem exists_entry (h : IsSequence t vs js) (hj : j < t.length) :
    ∃ e ∈ t, slot? t.length e.1 = some j :=
  exists_mem_of_forall₂ h.slots (h.perm.mem_iff.mpr (List.mem_range.mpr hj))

/-- What is at a key is the value at its place. -/
theorem get?_eq (h : IsSequence t vs js) (k : Value) :
    t.get? k = (slot? t.length k).bind fun j => vs[j]? := by
  rw [get?]
  cases hf : t.find? fun e => e.1.equal k with
  | none =>
      cases hk : slot? t.length k with
      | none => rfl
      | some j =>
          obtain ⟨e, he, here⟩ := h.exists_entry (slot?_lt hk)
          have same := (equal_iff_of_slot? here).mpr hk
          exact absurd same (List.find?_eq_none.mp hf e he)
  | some e =>
      obtain ⟨j, here, value⟩ := h.exists_place (List.mem_of_find?_eq_some hf)
      have same : e.1.equal k = true :=
        List.find?_some (p := fun (e : Value × Value) => e.1.equal k) hf
      rw [(equal_iff_of_slot? here).mp same, Option.map_some, Option.bind_some, value]

/-- The keys are the numbers of the places. -/
theorem map_fst (h : IsSequence t vs js) :
    t.map Prod.fst = js.map fun j => .ofInt (j + 1 : Nat) := by
  refine List.forall₂_eq_eq_eq ▸ List.forall₂_map_left_iff.mpr (List.forall₂_map_right_iff.mpr ?_)
  exact h.slots.imp fun e j here => (ofInt_of_slot? here).symm

/-- Scripts tell the keys of a sequence apart. -/
theorem apart (h : IsSequence t vs js) : Apart t := by
  refine pairwise_of_forall₂ h.slots.flip (h.perm.nodup_iff.mpr List.nodup_range) ?_
  intro i e j d hi hj ne
  refine Bool.not_eq_true _ ▸ fun same => ne ?_
  exact Option.some.inj (((equal_iff_of_slot? hi).mp same).symm.trans hj)

end IsSequence

end HostBridge.Script.Table
