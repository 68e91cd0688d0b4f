import HostBridge.Host.Value
import HostBridge.Proofs.Script.Places

/-!
# Equality part by part

Values that have parts are equal if they have as many and these are equal one by one, on the
host as in scripts.  Tables made from values have the same keys, so they are equal as the
values are.
-/

namespace HostBridge

/-! ## Host values -/

namespace Host.Value

theorem equalItems_iff {xs ys : List Value} :
    equalItems xs ys = true ↔ List.Forall₂ (fun x y => x.equal y = true) xs ys := by
  induction xs generalizing ys with
  | nil => cases ys <;> simp [equalItems]
  | cons x xs ih => cases ys <;> simp [equalItems, ih]

theorem equalEntries_iff {xs ys : List (Value × Value)} :
    equalEntries xs ys = true ↔
      List.Forall₂ (fun a b => a.1.equal b.1 = true ∧ a.2.equal b.2 = true) xs ys := by
  induction xs generalizing ys with
  | nil => cases ys <;> simp [equalEntries]
  | cons x xs ih => cases ys <;> simp [equalEntries, ih]

end Host.Value

/-! ## Script values -/

namespace Script.Value

theorem equal_table_iff {s t : Table} :
    (table s).equal (.table t) = true ↔
      List.Forall₂ (fun a b => a.1.equal b.1 = true ∧ a.2.equal b.2 = true) s t := by
  show equalEntries s t = true ↔ _
  induction s generalizing t with
  | nil => cases t <;> simp [equalEntries]
  | cons e s ih => cases t <;> simp [equalEntries, ih]

theorem equal_number_comm (k : Value) (x : Binary64) :
    k.equal (.number x) = (number x).equal k := by
  cases k with
  | number y => exact Binary.equal_comm y x
  | _ => rfl

theorem equal_ofInt_self (i : Int) : (ofInt i).equal (.ofInt i) = true :=
  (Binary.equal_self_iff _).mpr (Binary.isNaN_ofInt Table.one_lt_topExponent i)

/-- Tables made from values are equal as the values are. -/
theorem equal_ofSequence_iff {vs ws : List Value} :
    (table (Table.ofSequence vs)).equal (.table (Table.ofSequence ws)) = true ↔
      List.Forall₂ (fun v w => v.equal w = true) vs ws := by
  suffices ∀ i, (table (Table.sequenceFrom i vs)).equal (.table (Table.sequenceFrom i ws)) = true ↔
      List.Forall₂ (fun v w => v.equal w = true) vs ws from this 1
  intro i
  rw [equal_table_iff]
  induction vs generalizing i ws with
  | nil => cases ws <;> simp [Table.sequenceFrom]
  | cons v vs ih => cases ws <;> simp [Table.sequenceFrom, equal_ofInt_self, ih]

end Script.Value

namespace Script.Table

variable {s t : Table} {vs : List Value} {js : List Nat} {n j : Nat} {k k' : Value}

theorem equal_iff_of_slot?_right (h : slot? n k = some j) :
    k'.equal k = true ↔ slot? n k' = some j := by
  rw [← equal_iff_of_slot? h]
  obtain ⟨x, rfl, -⟩ := slot?_eq_some_iff.mp h
  rw [Value.equal_number_comm]

/-- Keys that are equal to those of a sequence, one by one, are of the same places. -/
theorem IsSequence.slots_of_equal (h : IsSequence s vs js)
    (keys : List.Forall₂ (fun a b => a.1.equal b.1 = true ∨ b.1.equal a.1 = true) s t) :
    List.Forall₂ (fun e j => slot? t.length e.1 = some j) t js ∧ js.Perm (List.range t.length) := by
  have length : s.length = t.length := keys.length_eq
  refine ⟨forall₂_trans keys.flip h.slots fun same here => ?_, length ▸ h.perm⟩
  rw [← length]
  exact same.elim (equal_iff_of_slot? here).mp (equal_iff_of_slot?_right here).mp

end Script.Table

end HostBridge
