import HostBridge.Proofs.Script.Places

/-!
# Values that scripts make, and when they are alike

Scripts make tables by writing entries, or from values in order.  `Made` is what they can
make with truth values, texts and numbers as keys.  Two keys of a table that was written are
told apart.  So are those of a table made from values, as long as numbers count them
(`Made.shaped`).

Two tables are alike if they have the same keys and what is under each is alike.  The
entries of a sequence may be in another order then, unless they were in order already.  In
a table that is no sequence they are in the same order.
-/

namespace HostBridge.Script

open Table (places)

/-! ## Making values -/

namespace Value

/-- The value is a key that scripts find again. -/
def IsKey : Value → Prop
  | .boolean _ => True
  | .number x => x.isNaN = false
  | .string _ => True
  | _ => False

theorem IsKey.table?_eq_none {k : Value} (h : k.IsKey) : k.table? = none := by
  cases k with
  | table t => exact h.elim
  | _ => rfl

theorem IsKey.isNil_eq_false {k : Value} (h : k.IsKey) : k.isNil = false := by
  cases k with
  | nil => exact h.elim
  | _ => rfl

theorem isKey_ofInt (i : Int) : (ofInt i).IsKey := Binary.isNaN_ofInt Table.one_lt_topExponent i

/-- A table in the value has an entry with value nil. -/
inductive HoldsNil : Value → Prop where
  | here {t : Table} {e : Value × Value} (he : e ∈ t) (h : e.2 = .nil) : HoldsNil (.table t)
  | inside {t : Table} {e : Value × Value} (he : e ∈ t) (h : HoldsNil e.2) : HoldsNil (.table t)

theorem holdsNil_table_iff {t : Table} :
    HoldsNil (.table t) ↔ ∃ e ∈ t, e.2 = .nil ∨ HoldsNil e.2 := by
  constructor
  · intro h
    cases h with
    | here he h => exact ⟨_, he, .inl h⟩
    | inside he h => exact ⟨_, he, .inr h⟩
  · rintro ⟨e, he, h | h⟩
    · exact .here he h
    · exact .inside he h

/-- Numbers count the entries of every table in the value. -/
inductive Counted : Value → Prop where
  | scalar {v : Value} (h : v.table? = none) : Counted v
  | table {t : Table} (few : t.length ≤ places) (values : ∀ e ∈ t, Counted e.2) :
      Counted (.table t)

end Value

/-- The value is made by scripts.  The empty table is made from no values. -/
inductive Made : Value → Prop where
  | scalar {v : Value} (h : v.table? = none) : Made v
  | sequence {values : List Value} (h : ∀ v ∈ values, Made v) :
      Made (.table (Table.ofSequence values))
  | insert {t : Table} {k v : Value} (ht : Made (.table t)) (hk : k.IsKey) (hv : Made v) :
      Made (.table (t.insert k v))

/-- The tables in the value have keys that scripts find again, and that they tell apart if
numbers count the entries. -/
inductive Shaped : Value → Prop where
  | scalar {v : Value} (h : v.table? = none) : Shaped v
  | table {t : Table} (keys : ∀ e ∈ t, e.1.IsKey) (values : ∀ e ∈ t, Shaped e.2)
      (apart : t.length ≤ places → t.Apart) : Shaped (.table t)

namespace Table

variable {s t : Table} {k a b : Value}

theorem forall_mem_ofSequence {P : Value → Prop} {values : List Value} (h : ∀ v ∈ values, P v) :
    ∀ e ∈ ofSequence values, e.1.IsKey ∧ P e.2 := by
  suffices ∀ i, ∀ e ∈ sequenceFrom i values, e.1.IsKey ∧ P e.2 from this 1
  induction values with
  | nil => exact fun _ => List.forall_mem_nil _
  | cons v rest ih =>
      obtain ⟨first, later⟩ := List.forall_mem_cons.mp h
      exact fun i => List.forall_mem_cons.mpr ⟨⟨Value.isKey_ofInt i, first⟩, ih later (i + 1)⟩

theorem apart_ofSequence {values : List Value} (h : values.length ≤ places) :
    (ofSequence values).Apart := by
  obtain ⟨_, sequence⟩ := isSequence_of_sequence? (sequence?_ofSequence h)
  exact sequence.apart

/-- Scripts tell the keys of a table made from values apart exactly if numbers count them. -/
theorem apart_ofSequence_iff {values : List Value} :
    (ofSequence values).Apart ↔ values.length ≤ places := by
  refine ⟨fun apart => Decidable.byContradiction fun many => ?_, apart_ofSequence⟩
  -- The number of the last place is also that of the place after it.
  have same : (Value.ofInt places).equal (.ofInt (places + 1 : Nat)) = true := by decide +kernel
  rw [apart_iff_keys, ofSequence, map_fst_sequenceFrom, List.pairwise_map,
    List.pairwise_iff_getElem] at apart
  have place {i : Nat} (hi : i ≤ places) : i < (List.range' 1 values.length).length := by
    rw [List.length_range']
    omega
  have unequal := apart (places - 1) places (place (Nat.sub_le _ _)) (place (Nat.le_refl _))
    (by decide)
  rw [List.getElem_range', List.getElem_range'] at unequal
  cases same.symm.trans unequal

end Table

/-- A value made by scripts has keys that are told apart. -/
theorem Made.shaped {v : Value} (h : Made v) : Shaped v := by
  induction h with
  | scalar h => exact .scalar h
  | @sequence values _ ih =>
      have entries := Table.forall_mem_ofSequence ih
      refine .table (fun e he => (entries e he).1) (fun e he => (entries e he).2) fun few => ?_
      rw [Table.ofSequence, Table.length_sequenceFrom] at few
      exact Table.apart_ofSequence few
  | @insert t k v _ hk _ iht ihv =>
      cases iht with
      | scalar h => cases h
      | table keys values apart =>
          have entries := Table.forall_mem_insert
            (fun e he => ⟨keys e he, values e he⟩) hk ihv
          refine .table (fun e he => (entries e he).1) (fun e he => (entries e he).2) fun few => ?_
          have before := Nat.le_trans (Table.length_le_length_insert t k v) few
          exact (apart before).insert k v

/-! ## Likeness -/

/-- The keys are one, two and so on, in order. -/
def Table.InOrder (t : Table) : Prop :=
  t.map Prod.fst = (List.range' 1 t.length).map fun j => .ofInt (j : Nat)

/-- The values are the same, or tables with the same keys and values that are alike under
each key. -/
inductive Alike : Value → Value → Prop where
  | scalar {v : Value} (h : v.table? = none) : Alike v v
  | table {s t : Table} (keys : (s.map Prod.fst).Perm (t.map Prod.fst))
      (values : ∀ k a b, s.get? k = some a → t.get? k = some b → Alike a b)
      (order : Table.sequence? s = none ∨ s.InOrder → s.map Prod.fst = t.map Prod.fst) :
      Alike (.table s) (.table t)

namespace Table

variable {s t : Table} {k a b : Value}

/-- Tables that have the same keys in the same order have related values under each key, if
their entries have. -/
theorem get?_of_forall₂ {R : Value → Value → Prop}
    (h : List.Forall₂ (fun e d => d.1 = e.1 ∧ R e.2 d.2) s t) (ha : s.get? k = some a)
    (hb : t.get? k = some b) : R a b := by
  induction h with
  | nil => cases ha
  | @cons e d _ _ hed _ ih =>
      obtain ⟨key, value⟩ := hed
      rw [get?_cons] at ha hb
      rw [key] at hb
      split at ha
      · rename_i same
        rw [if_pos same] at hb
        cases ha
        cases hb
        exact value
      · rename_i other
        rw [if_neg other] at hb
        exact ih ha hb

/-- Tables with the same keys in the same order are alike if their values are. -/
theorem alike_of_entries (h : List.Forall₂ (fun e d => d.1 = e.1 ∧ Alike e.2 d.2) s t) :
    Alike (.table s) (.table t) := by
  have keys : s.map Prod.fst = t.map Prod.fst := by
    induction h with
    | nil => rfl
    | cons hed _ ih => rw [List.map_cons, List.map_cons, hed.1, ih]
  exact .table (.of_eq keys) (fun _ _ _ => get?_of_forall₂ h) fun _ => keys

/-- A sequence is like the table made from values that are like its own. -/
theorem alike_of_sequence {vs ws : List Value} (hs : sequence? t = some vs)
    (h : List.Forall₂ Alike vs ws) : Alike (.table t) (.table (ofSequence ws)) := by
  obtain ⟨js, ht⟩ := isSequence_of_sequence? hs
  have length : ws.length = t.length := h.length_eq.symm.trans ht.length_eq
  obtain ⟨is, hw⟩ := isSequence_of_sequence? (sequence?_ofSequence_of_length hs h.length_eq)
  have length' : (ofSequence ws).length = t.length := hw.length_eq.symm.trans length
  refine .table ?_ ?_ ?_
  · rw [ht.map_fst, hw.map_fst]
    exact (ht.perm.trans (length' ▸ hw.perm.symm)).map _
  · -- The values of both tables are at the place of the key.
    intro k a b ha hb
    rw [ht.get?_eq] at ha
    rw [hw.get?_eq, length'] at hb
    obtain ⟨j, hj, ha⟩ := Option.bind_eq_some_iff.mp ha
    rw [hj, Option.bind_some] at hb
    obtain ⟨b', hb', alike⟩ := exists_getElem?_of_forall₂ h ha
    cases hb.symm.trans hb'
    exact alike
  · rintro (none | inOrder)
    · cases hs.symm.trans none
    · rw [inOrder, ofSequence, map_fst_sequenceFrom, length]

end Table

end HostBridge.Script
