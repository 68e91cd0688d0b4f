import Mathlib.Data.Set.Card
import HostBridge.Proofs.Script.Equivalence
import HostBridge.Proofs.Script.Writing

/-!
# Tables as maps

A table that was written entry by entry is a map that keeps its keys in order.  What it has
to hold is said in terms of the writes alone: `lastWritten` is the value a key was given
last, and `firstKeys` are the keys in the order in which each was written first.

One write changes what is at the keys equal to its own and nothing else (`get?_insert`), and
it adds its key at the end if no key equals it.  Both need that equality is symmetric and
transitive, at all depths.  `written_recalls` is what follows for any number of writes.
-/

namespace HostBridge.Script.Table

open Value (HoldsNaN)

variable {t : Table} {writes : List (Value × Value)} {e : Value × Value} {k v : Value}

/-! ## What was written -/

/-- What was written last at a key. -/
def lastWritten (writes : List (Value × Value)) (k : Value) : Option Value :=
  (writes.reverse.find? fun e => e.1.equal k).map Prod.snd

/-- The value is a key, and nothing was written at it before.  Nil is no key. -/
def isNew (before : List (Value × Value)) (k : Value) : Bool :=
  !k.isNil && before.all fun e => !e.1.equal k

/-- The keys in the order in which each was written first. -/
def firstKeys (writes : List (Value × Value)) : List Value :=
  (writes.zipIdx.filter fun w => isNew (writes.take w.2) w.1.1).map fun w => w.1.1

theorem written_concat (writes : List (Value × Value)) (e : Value × Value) :
    written (writes ++ [e]) = (written writes).insert e.1 e.2 := by
  rw [written, List.foldl_append]
  rfl

theorem lastWritten_concat (writes : List (Value × Value)) (e : Value × Value) (k : Value) :
    lastWritten (writes ++ [e]) k = if e.1.equal k then some e.2 else lastWritten writes k := by
  rw [lastWritten, List.reverse_append, List.reverse_singleton, List.singleton_append,
    List.find?_cons]
  cases e.1.equal k <;> rfl

theorem lastWritten_eq_none_iff :
    lastWritten writes k = none ↔ ∀ e ∈ writes, e.1.equal k = false := by
  rw [lastWritten, Option.map_eq_none_iff, List.find?_eq_none]
  simp only [List.mem_reverse, Bool.not_eq_true]

theorem isNew_iff : isNew writes k = true ↔ k.isNil = false ∧ lastWritten writes k = none := by
  rw [isNew, Bool.and_eq_true, Bool.not_eq_true', List.all_eq_true, lastWritten_eq_none_iff]
  simp only [Bool.not_eq_true']

theorem firstKeys_concat (writes : List (Value × Value)) (e : Value × Value) :
    firstKeys (writes ++ [e]) = firstKeys writes ++ if isNew writes e.1 then [e.1] else [] := by
  have before : (writes.zipIdx.filter fun w => isNew ((writes ++ [e]).take w.2) w.1.1) =
      writes.zipIdx.filter fun w => isNew (writes.take w.2) w.1.1 := by
    refine List.filter_congr fun w hw => ?_
    rw [List.take_append_of_le_length (Nat.le_of_lt (List.snd_lt_of_mem_zipIdx hw))]
  rw [firstKeys, List.zipIdx_append, List.filter_append, List.map_append, before, firstKeys,
    List.zipIdx_singleton, List.filter_singleton, Nat.zero_add, List.take_left]
  cases isNew writes e.1 <;> rfl

theorem exists_of_mem_firstKeys (h : k ∈ firstKeys writes) :
    k.isNil = false ∧ ∃ e ∈ writes, e.1 = k := by
  obtain ⟨w, hw, rfl⟩ := List.mem_map.mp h
  obtain ⟨hw, new⟩ := List.mem_filter.mp hw
  exact ⟨(isNew_iff.mp new).1, w.1, List.fst_mem_of_mem_zipIdx hw, rfl⟩

/-! ## One write -/

/-- A write changes what is at the keys equal to its own. -/
theorem get?_write (k v : Value) (t : Table) (l : Value) :
    get? (write k v t) l = if k.equal l then some v else t.get? l := by
  induction t with
  | nil => rw [write, get?_cons]
  | cons e rest ih =>
      obtain ⟨k', v'⟩ := e
      rw [write, get?_cons]
      split
      · rename_i same
        rw [get?_cons, Value.equal_congr same]
        cases k.equal l <;> rfl
      · rename_i other
        rw [get?_cons, ih]
        split
        · rename_i here
          -- No key equals two that differ.
          have apart : k.equal l = false := Bool.not_eq_true _ ▸ fun there =>
            other (Value.equal_trans here (Value.equal_comm k l ▸ there))
          rw [apart, if_neg Bool.false_ne_true]
        · rfl

/-- A write at nil is none, and nil equals no other key. -/
theorem get?_insert (k v : Value) (t : Table) {l : Value} (hl : l.isNil = false) :
    get? (t.insert k v) l = if k.equal l then some v else t.get? l := by
  rw [insert]
  split
  · rename_i nil
    have apart : k.equal l = false := Bool.not_eq_true _ ▸ fun same =>
      Bool.false_ne_true (hl.symm.trans ((Value.isNil_of_equal same).symm.trans nil))
    rw [apart, if_neg Bool.false_ne_true]
  · exact get?_write k v t l

/-- A write adds its key at the end if it is new. -/
theorem map_fst_insert (t : Table) (k v : Value) :
    (t.insert k v).map Prod.fst =
      t.map Prod.fst ++ if k.isNil = false ∧ t.get? k = none then [k] else [] := by
  rw [insert]
  split
  · rename_i nil
    rw [if_neg fun new => Bool.false_ne_true (new.1.symm.trans nil), List.append_nil]
  · rename_i present
    by_cases h : t.get? k = none
    · rw [write_of_new (get?_eq_none_iff.mp h), if_pos ⟨Bool.not_eq_true _ ▸ present, h⟩,
        List.map_append]
      rfl
    · have old : ∃ e ∈ t, e.1.equal k = true := by
        rw [get?_eq_none_iff] at h
        push Not at h
        simpa using h
      rw [map_fst_write_of_mem old, if_neg fun new => h new.2, List.append_nil]

/-! ## All writes -/

theorem get?_written (writes : List (Value × Value)) (hk : k.isNil = false) :
    (written writes).get? k = lastWritten writes k := by
  induction writes using List.reverseRecOn with
  | nil => rfl
  | append_singleton writes e ih =>
      rw [written_concat, get?_insert _ _ _ hk, ih, lastWritten_concat]

theorem map_fst_written (writes : List (Value × Value)) :
    (written writes).map Prod.fst = firstKeys writes := by
  induction writes using List.reverseRecOn with
  | nil => rfl
  | append_singleton writes e ih =>
      rw [written_concat, map_fst_insert, ih, firstKeys_concat]
      congr 1
      by_cases new : isNew writes e.1 = true
      · obtain ⟨present, none⟩ := isNew_iff.mp new
        rw [if_pos new, if_pos ⟨present, (get?_written writes present).trans none⟩]
      · rw [if_neg new, if_neg]
        rintro ⟨present, none⟩
        exact new (isNew_iff.mpr ⟨present, (get?_written writes present).symm.trans none⟩)

theorem apart_written (writes : List (Value × Value)) : (written writes).Apart := by
  induction writes using List.reverseRecOn with
  | nil => exact .nil
  | append_singleton writes e ih =>
      rw [written_concat]
      exact ih.insert e.1 e.2

/-- A key of the table is equal to one exactly if something was written at it. -/
theorem exists_equal_iff (hk : k.isNil = false) :
    (∃ e ∈ written writes, e.1.equal k = true) ↔ ∃ e ∈ writes, e.1.equal k = true := by
  have none_iff := (get?_written writes hk ▸ get?_eq_none_iff).symm.trans lastWritten_eq_none_iff
  rw [← not_iff_not]
  simpa only [not_exists, not_and, Bool.not_eq_true] using none_iff

/-! ## Counting keys -/

/-- The values equal to a key. -/
def sameKeys (k : Value) : Set Value := {l | k.equal l = true}

/-- The keys that were written, where equal ones are one. -/
def distinctKeys (writes : List (Value × Value)) : Set (Set Value) :=
  {c | ∃ e ∈ writes, e.1.isNil = false ∧ c = sameKeys e.1}

theorem sameKeys_eq_iff {l : Value} (self : l.equal l = true) :
    sameKeys k = sameKeys l ↔ k.equal l = true := by
  constructor
  · intro h
    exact (Set.ext_iff.mp h l).mpr self
  · intro h
    ext m
    exact Bool.eq_iff_iff.mp (Value.equal_congr h m)

/-- The keys of the table are the distinct keys, each once. -/
theorem length_written (clean : ∀ e ∈ writes, ¬ HoldsNaN e.1) :
    (written writes).length = (distinctKeys writes).ncard := by
  classical
  have self : ∀ e ∈ writes, e.1.equal e.1 = true := fun e he =>
    (Value.equal_self_iff e.1).mpr (clean e he)
  have origin : ∀ e ∈ written writes, e.1.isNil = false ∧ ∃ d ∈ writes, d.1 = e.1 := by
    intro e he
    refine exists_of_mem_firstKeys ?_
    rw [← map_fst_written]
    exact List.mem_map_of_mem he
  have nodup : ((written writes).map fun e => sameKeys e.1).Nodup := by
    refine List.pairwise_map.mpr ((apart_written writes).imp_of_mem fun {d e} _ he apart same => ?_)
    obtain ⟨-, w, hw, key⟩ := origin e he
    cases apart.symm.trans ((sameKeys_eq_iff (key ▸ self w hw)).mp same)
  have all : distinctKeys writes = (((written writes).map fun e => sameKeys e.1).toFinset : Set _) := by
    ext c
    rw [List.coe_toFinset]
    constructor
    · rintro ⟨w, hw, present, rfl⟩
      obtain ⟨e, he, same⟩ := (exists_equal_iff present).mpr ⟨w, hw, self w hw⟩
      exact List.mem_map.mpr ⟨e, he, (sameKeys_eq_iff (self w hw)).mpr same⟩
    · intro hc
      obtain ⟨e, he, rfl⟩ := List.mem_map.mp hc
      obtain ⟨present, w, hw, key⟩ := origin e he
      exact ⟨w, hw, key ▸ present, key ▸ rfl⟩
  rw [all, Set.ncard_coe_finset, List.toFinset_card_of_nodup nodup, List.length_map]

/-! ## Main theorem -/

/-- The table is the map that the writes make. -/
structure Recalls (t : Table) (writes : List (Value × Value)) : Prop where
  /-- Nil is no key. -/
  present : ∀ e ∈ t, e.1 ≠ .nil
  /-- No two keys are equal. -/
  apart : t.Pairwise fun d e => d.1.equal e.1 = false ∧ e.1.equal d.1 = false
  /-- At a key there is what was written last at a key equal to it, if anything was. -/
  found : ∀ k, k ≠ .nil → t.get? k = lastWritten writes k
  /-- At nil there is nothing. -/
  nothing : t.get? .nil = none
  /-- The entries are in the order in which their keys were first written. -/
  order : t.map Prod.fst = firstKeys writes
  /-- The value of an entry is what is found at its key. -/
  entries : ∀ e ∈ t, t.get? e.1 = some e.2
  /-- There is one entry for each key that was written, equal keys being one. -/
  count : t.length = (distinctKeys writes).ncard
  /-- To look a text up is to look up the key with the text. -/
  texts : ∀ s, t.getString? s = t.get? (.string s)

theorem getString?_eq (t : Table) (s : String) : t.getString? s = t.get? (.string s) := by
  have same : ∀ k : Value, (k.string? == some s) = k.equal (.string s) := by
    intro k
    cases k <;> rfl
  simp only [getString?, get?, same]

/-- A table that was written with keys that hold no NaN is the map that the writes make. -/
theorem written_recalls (writes : List (Value × Value)) (clean : ∀ e ∈ writes, ¬ HoldsNaN e.1) :
    (written writes).Recalls writes := by
  have apart := apart_written writes
  have origin : ∀ e ∈ written writes, e.1.isNil = false ∧ e.1.equal e.1 = true := by
    intro e he
    have first : e.1 ∈ firstKeys writes := map_fst_written writes ▸ List.mem_map_of_mem he
    obtain ⟨present, w, hw, key⟩ := exists_of_mem_firstKeys first
    exact ⟨present, (Value.equal_self_iff e.1).mpr (key ▸ clean w hw)⟩
  have present {k : Value} (hk : k ≠ .nil) : k.isNil = false := by
    cases k with
    | nil => exact absurd rfl hk
    | _ => rfl
  refine ⟨?_, ?_, fun k hk => get?_written writes (present hk), ?_, map_fst_written writes,
    fun e he => apart.get?_of_mem he (origin e he).2, length_written clean, getString?_eq _⟩
  · intro e he nil
    cases nil ▸ (origin e he).1
  · refine apart.imp fun {d e} h => ⟨h, ?_⟩
    rw [Value.equal_comm, h]
  · refine get?_eq_none_iff.mpr fun e he => Bool.not_eq_true _ ▸ fun same => ?_
    cases (origin e he).1.symm.trans (Value.isNil_of_equal same)

/-- Writes at tables that are equal, as `0` and `-0` are, at nil and at a text. -/
def peals : List (Value × Value) := [
  (.table [(.ofInt 1, .number (.zero false))], .string "morning"),
  (.nil, .string "lost"),
  (.string "curfew", .boolean true),
  (.table [(.ofInt 1, .number (.zero true))], .string "evening")]

/-- Two entries are left, and the first one has the later value. -/
theorem written_recalls_peals :
    (∀ e ∈ peals, ¬ HoldsNaN e.1) ∧ (written peals).Recalls peals ∧
      (written peals).map (fun e => e.2.display) = ["evening", "true"] := by
  have self : ∀ e ∈ peals, e.1.equal e.1 = true := by decide +kernel
  have clean : ∀ e ∈ peals, ¬ HoldsNaN e.1 := fun e he =>
    (Value.equal_self_iff e.1).mp (self e he)
  exact ⟨clean, written_recalls peals clean, by decide +kernel⟩

end HostBridge.Script.Table
