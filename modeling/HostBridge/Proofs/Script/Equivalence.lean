import HostBridge.Script.Value

/-!
# Equality of scripts as an equivalence

Equality of scripts goes through tables entry by entry, keys before values, and compares
numbers as numbers.  So `0` and `-0` are equal at any depth, and one NaN at any depth makes
a value differ from everything, itself included.

All the same it has no direction (`equal_comm`), and what equals one value is equal
(`equal_trans`).  A value equals itself exactly if it holds no NaN (`equal_self_iff`).
-/

namespace HostBridge.Script.Value

/-! ## Laws that hold of all values -/

mutual

/-- Equality has no direction. -/
theorem equal_comm : ∀ a b : Value, a.equal b = b.equal a
  | .nil, b => by cases b <;> rfl
  | .boolean x, b => by
      cases b with
      | boolean y => exact Bool.beq_comm
      | _ => rfl
  | .number x, b => by
      cases b with
      | number y => exact Binary.equal_comm x y
      | _ => rfl
  | .string x, b => by
      cases b with
      | string y => exact BEq.comm
      | _ => rfl
  | .table s, b => by
      cases b with
      | table t => exact equalEntries_comm s t
      | _ => rfl
termination_by structural a => a

/-- Equality of entries has no direction. -/
theorem equalEntries_comm : ∀ s t : Table, equalEntries s t = equalEntries t s
  | [], t => by cases t <;> rfl
  | (k, v) :: s, t => by
      cases t with
      | nil => rfl
      | cons e t =>
          rw [equalEntries, equalEntries, equal_comm k, equal_comm v, equalEntries_comm s]
termination_by structural s => s

end

mutual

/-- What equals one value is equal. -/
theorem equal_trans : ∀ {a b c : Value}, a.equal b = true → b.equal c = true → a.equal c = true
  | .nil, b, c, h, h' => by
      cases b <;> cases h
      exact h'
  | .boolean x, b, c, h, h' => by
      cases b with
      | boolean y => exact beq_iff_eq.mp h ▸ h'
      | _ => cases h
  | .number x, b, c, h, h' => by
      cases b with
      | number y =>
          cases c with
          | number z => exact Binary.equal_trans h h'
          | _ => cases h'
      | _ => cases h
  | .string x, b, c, h, h' => by
      cases b with
      | string y => exact beq_iff_eq.mp h ▸ h'
      | _ => cases h
  | .table s, b, c, h, h' => by
      cases b with
      | table t =>
          cases c with
          | table u => exact equalEntries_trans h h'
          | _ => cases h'
      | _ => cases h
termination_by structural a => a

/-- What equals the same entries is equal. -/
theorem equalEntries_trans : ∀ {s t u : Table}, equalEntries s t = true →
    equalEntries t u = true → equalEntries s u = true
  | [], t, u, h, h' => by
      cases t with
      | nil => exact h'
      | cons => cases h
  | (k, v) :: s, t, u, h, h' => by
      cases t with
      | nil => cases h
      | cons e t =>
          cases u with
          | nil => cases h'
          | cons d u =>
              simp only [equalEntries, Bool.and_eq_true] at h h' ⊢
              have key := equal_trans h.1.1 h'.1.1
              have value := equal_trans h.1.2 h'.1.2
              exact ⟨⟨key, value⟩, equalEntries_trans h.2 h'.2⟩
termination_by structural s => s

end

/-- Equal values are equal to the same values. -/
theorem equal_congr {a b : Value} (h : a.equal b = true) (c : Value) : a.equal c = b.equal c := by
  rw [Bool.eq_iff_iff]
  exact ⟨equal_trans (equal_comm a b ▸ h), equal_trans h⟩

/-- Only nil equals nil. -/
theorem isNil_of_equal {a b : Value} (h : a.equal b = true) : a.isNil = b.isNil := by
  cases a <;> cases b <;> first | rfl | cases h

/-! ## Values that equal themselves -/

/-- A NaN is the value, or is in a key or in a value of an entry, at some depth. -/
inductive HoldsNaN : Value → Prop where
  | here {x : Binary64} (h : x.isNaN = true) : HoldsNaN (.number x)
  | key {t : Table} {e : Value × Value} (he : e ∈ t) (h : HoldsNaN e.1) : HoldsNaN (.table t)
  | value {t : Table} {e : Value × Value} (he : e ∈ t) (h : HoldsNaN e.2) : HoldsNaN (.table t)

theorem holdsNaN_number_iff {x : Binary64} : HoldsNaN (.number x) ↔ x.isNaN = true := by
  constructor
  · intro h
    cases h
    assumption
  · exact .here

theorem not_holdsNaN_of_scalar {a : Value} (ha : a.table? = none) (hn : a.number? = none) :
    ¬ HoldsNaN a := by
  intro h
  cases h with
  | here => cases hn
  | key => cases ha
  | value => cases ha

theorem holdsNaN_nil : ¬ HoldsNaN (.table []) := by
  intro h
  cases h with
  | key he => cases he
  | value he => cases he

theorem holdsNaN_cons_iff {e : Value × Value} {t : Table} :
    HoldsNaN (.table (e :: t)) ↔ HoldsNaN e.1 ∨ HoldsNaN e.2 ∨ HoldsNaN (.table t) := by
  constructor
  · intro h
    cases h with
    | key he h =>
        rcases List.mem_cons.mp he with rfl | he
        · exact .inl h
        · exact .inr (.inr (.key he h))
    | value he h =>
        rcases List.mem_cons.mp he with rfl | he
        · exact .inr (.inl h)
        · exact .inr (.inr (.value he h))
  · rintro (h | h | h)
    · exact .key (List.mem_cons_self ..) h
    · exact .value (List.mem_cons_self ..) h
    · cases h with
      | key he h => exact .key (List.mem_cons_of_mem _ he) h
      | value he h => exact .value (List.mem_cons_of_mem _ he) h

mutual

/-- A value equals itself if it holds no NaN, and only then. -/
theorem equal_self_iff : ∀ a : Value, a.equal a = true ↔ ¬ HoldsNaN a
  | .nil => iff_of_true rfl (not_holdsNaN_of_scalar rfl rfl)
  | .boolean x => iff_of_true (beq_self_eq_true x) (not_holdsNaN_of_scalar rfl rfl)
  | .number x => by
      rw [holdsNaN_number_iff, Bool.not_eq_true]
      exact Binary.equal_self_iff x
  | .string x => iff_of_true (beq_self_eq_true x) (not_holdsNaN_of_scalar rfl rfl)
  | .table t => equalEntries_self_iff t
termination_by structural a => a

/-- Entries equal themselves if they hold no NaN, and only then. -/
theorem equalEntries_self_iff : ∀ t : Table, equalEntries t t = true ↔ ¬ HoldsNaN (.table t)
  | [] => iff_of_true rfl holdsNaN_nil
  | (k, v) :: t => by
      rw [equalEntries, Bool.and_eq_true, Bool.and_eq_true, equal_self_iff k, equal_self_iff v,
        equalEntries_self_iff t, holdsNaN_cons_iff, not_or, not_or, and_assoc]
termination_by structural t => t

end

end HostBridge.Script.Value
