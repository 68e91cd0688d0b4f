import HostBridge.Script.Value

/-!
# Writing entries one after the other

To write at a key that is not there yet puts the entry at the end.  So entries whose keys
are told apart, and none of them nil, make up the table they are written to.

To write at a key that is there changes no key.  So the keys of a table are told apart if
it was written entry by entry, whatever was written (`Apart.insert`).
-/

namespace HostBridge.Script.Table

/-- An entry with a new key comes last. -/
theorem write_of_new {t : Table} {k : Value} (h : ∀ e ∈ t, e.1.equal k = false) (v : Value) :
    write k v t = t ++ [(k, v)] := by
  induction t with
  | nil => rfl
  | cons e rest ih =>
      obtain ⟨other, later⟩ := List.forall_mem_cons.mp h
      rw [write, other, if_neg Bool.false_ne_true, ih later]
      rfl

/-- Entries with new keys come last, in order. -/
theorem foldl_insert_of_new (done : Table) {es : Table} (present : ∀ e ∈ es, e.1.isNil = false)
    (h : (done ++ es).Pairwise fun a b => a.1.equal b.1 = false) :
    es.foldl (fun t e => insert t e.1 e.2) done = done ++ es := by
  induction es generalizing done with
  | nil => exact (List.append_nil done).symm
  | cons e rest ih =>
      obtain ⟨some_key, later⟩ := List.forall_mem_cons.mp present
      have new : ∀ d ∈ done, d.1.equal e.1 = false := fun d hd =>
        (List.pairwise_append.mp h).2.2 d hd e (List.mem_cons_self ..)
      have step : insert done e.1 e.2 = done ++ [e] := by
        rw [insert, some_key, if_neg Bool.false_ne_true, write_of_new new]
      rw [List.foldl_cons, step, ih _ later]
      · exact List.append_assoc done [e] rest
      · rwa [List.append_assoc, List.singleton_append]

/-- The table that entries were written to, one after the other, from the empty table on. -/
def written (writes : List (Value × Value)) : Table :=
  writes.foldl (fun t e => t.insert e.1 e.2) []

/-- Entries whose keys are told apart are written as they are. -/
theorem written_of_pairwise {es : Table} (present : ∀ e ∈ es, e.1.isNil = false)
    (h : es.Pairwise fun a b => a.1.equal b.1 = false) : written es = es :=
  foldl_insert_of_new [] present h

/-! ## Keys that are told apart -/

/-- Scripts tell the keys of the table apart. -/
def Apart (t : Table) : Prop := t.Pairwise fun a b => a.1.equal b.1 = false

variable {t : Table} {k : Value}

theorem apart_iff_keys : Apart t ↔ (t.map Prod.fst).Pairwise fun k l => k.equal l = false := by
  rw [Apart, List.pairwise_map]

/-- A key that is there stays as it was written first. -/
theorem map_fst_write_of_mem (h : ∃ e ∈ t, e.1.equal k = true) (v : Value) :
    (write k v t).map Prod.fst = t.map Prod.fst := by
  induction t with
  | nil =>
      obtain ⟨e, he, -⟩ := h
      exact absurd he List.not_mem_nil
  | cons e rest ih =>
      rw [write]
      split
      · rfl
      · rename_i other
        obtain ⟨d, hd, same⟩ := h
        rcases List.mem_cons.mp hd with rfl | hd
        · exact absurd same other
        · rw [List.map_cons, ih ⟨d, hd, same⟩, List.map_cons]

theorem Apart.write (h : Apart t) (k v : Value) : Apart (write k v t) := by
  by_cases old : ∃ e ∈ t, e.1.equal k = true
  · rw [apart_iff_keys, map_fst_write_of_mem old, ← apart_iff_keys]
    exact h
  · have new : ∀ e ∈ t, e.1.equal k = false := fun e he =>
      Bool.not_eq_true _ ▸ fun same => old ⟨e, he, same⟩
    rw [write_of_new new]
    refine List.pairwise_append.mpr ⟨h, List.pairwise_singleton _ _, fun e he d hd => ?_⟩
    cases List.mem_singleton.mp hd
    exact new e he

/-- However a table is written to, scripts tell its keys apart. -/
theorem Apart.insert (h : Apart t) (k v : Value) : Apart (t.insert k v) := by
  rw [Table.insert]
  split
  · exact h
  · exact h.write k v

/-- Writing entries adds at most one each, and one each exactly if all keys are told apart. -/
theorem length_foldl_insert {done es : Table} (present : ∀ e ∈ es, e.1.isNil = false)
    (h : Apart done) :
    (es.foldl (fun t e => t.insert e.1 e.2) done).length ≤ done.length + es.length ∧
      ((es.foldl (fun t e => t.insert e.1 e.2) done).length = done.length + es.length ↔
        Apart (done ++ es)) := by
  induction es generalizing done with
  | nil =>
      rw [List.append_nil]
      exact ⟨Nat.le_refl _, iff_of_true rfl h⟩
  | cons e rest ih =>
      obtain ⟨some_key, later⟩ := List.forall_mem_cons.mp present
      obtain ⟨le, eq_iff⟩ := ih later (h.insert e.1 e.2)
      have step : done.insert e.1 e.2 = Table.write e.1 e.2 done := by
        rw [Table.insert, some_key, if_neg Bool.false_ne_true]
      rw [List.foldl_cons, List.length_cons]
      by_cases old : ∃ d ∈ done, d.1.equal e.1 = true
      · -- The entry is lost, and later entries do not make up for it.
        have same : (done.insert e.1 e.2).length = done.length := by
          rw [step, ← List.length_map (f := Prod.fst), map_fst_write_of_mem old, List.length_map]
        rw [same] at le
        refine ⟨by omega, iff_of_false (by omega) fun apart => ?_⟩
        obtain ⟨d, hd, key⟩ := old
        have := (List.pairwise_append.mp apart).2.2 d hd e (List.mem_cons_self ..)
        cases key.symm.trans this
      · have new : ∀ d ∈ done, d.1.equal e.1 = false := fun d hd =>
          Bool.not_eq_true _ ▸ fun same => old ⟨d, hd, same⟩
        rw [step, write_of_new new, List.length_append, List.length_singleton] at le eq_iff
        rw [step, write_of_new new]
        rw [List.append_assoc, List.singleton_append] at eq_iff
        rw [← eq_iff]
        omega

theorem length_le_length_insert (t : Table) (k v : Value) : t.length ≤ (t.insert k v).length := by
  have written : t.length ≤ (Table.write k v t).length := by
    induction t with
    | nil => exact Nat.zero_le _
    | cons e rest ih =>
        rw [Table.write]
        split
        · exact Nat.le_refl _
        · exact Nat.succ_le_succ ih
  rw [Table.insert]
  split
  · exact Nat.le_refl _
  · exact written

/-- What all keys and values have is kept if it holds of what is written. -/
theorem forall_mem_insert {P Q : Value → Prop} (h : ∀ e ∈ t, P e.1 ∧ Q e.2) {v : Value}
    (hk : P k) (hv : Q v) : ∀ e ∈ t.insert k v, P e.1 ∧ Q e.2 := by
  have written : ∀ e ∈ Table.write k v t, P e.1 ∧ Q e.2 := by
    induction t with
    | nil => exact List.forall_mem_singleton.mpr ⟨hk, hv⟩
    | cons e rest ih =>
        obtain ⟨first, later⟩ := List.forall_mem_cons.mp h
        rw [Table.write]
        split
        · exact List.forall_mem_cons.mpr ⟨⟨first.1, hv⟩, later⟩
        · exact List.forall_mem_cons.mpr ⟨first, ih later⟩
  rw [Table.insert]
  split
  · exact h
  · exact written

/-! ## Looking keys up -/

theorem get?_cons (e : Value × Value) (t : Table) (k : Value) :
    get? (e :: t) k = if e.1.equal k then some e.2 else t.get? k := by
  rw [get?, get?, List.find?_cons]
  cases e.1.equal k <;> rfl

theorem get?_eq_none_iff : t.get? k = none ↔ ∀ e ∈ t, e.1.equal k = false := by
  rw [get?, Option.map_eq_none_iff, List.find?_eq_none]
  simp only [Bool.not_eq_true]

/-- What is found at a key of the table is the value of its entry. -/
theorem Apart.get?_of_mem (h : Apart t) {e : Value × Value} (he : e ∈ t)
    (self : e.1.equal e.1 = true) : t.get? e.1 = some e.2 := by
  induction t with
  | nil => cases he
  | cons d rest ih =>
      obtain ⟨first, later⟩ := List.pairwise_cons.mp h
      rw [get?_cons]
      rcases List.mem_cons.mp he with rfl | he
      · rw [if_pos self]
      · rw [first e he, if_neg Bool.false_ne_true, ih later he]

end HostBridge.Script.Table
