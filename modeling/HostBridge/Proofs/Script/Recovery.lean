import Mathlib.Data.List.Nodup
import HostBridge.Proofs.Binary.Comparison
import HostBridge.Proofs.Script.Places

/-!
# Which tables are sequences

A table is a sequence if its keys count it, that is if they are the numbers from one to the
number of entries in some order (`Counts`).  Nothing looks for keys that repeat.  There are
as many entries as places, so a key that repeats leaves a place empty, and this is what is
looked for (`isSequence_of_sequence?`).

A machine decides by comparisons of numbers which place a key stands for, and casts the key
to a word to find it.  `readWords` does this, and can go wrong: it writes `outside` of the
places if the word is no place.  It does not for any table whose places keys tell apart
(`readWords_eq`), where it reads what `fill` does.
-/

namespace HostBridge.Script

open scoped Binary

/-- The integer that a key is, if it is one. -/
def Value.integer? (k : Value) : Option Int := k.number?.bind Binary.toInt?

namespace Table

variable {t : Table} {vs : List Value} {n i j : Nat} {k v : Value}

/-! ## Keys that count the entries -/

/-- The keys are the numbers from one to the number of entries, in some order. -/
def Counts (t : Table) : Prop :=
  (t.map fun e => e.1.integer?).Perm
    ((List.range t.length).map fun i => some ((i + 1 : Nat) : Int))

instance (t : Table) : Decidable (Counts t) := inferInstanceAs (Decidable (List.Perm _ _))

/-- What keeps keys from counting the entries. -/
inductive Miscounts (t : Table) : Prop
  | noNumber (e : Value × Value) (mem : e ∈ t) (key : e.1.number? = none)
  /-- A fraction, an infinity or a NaN. -/
  | notWhole (e : Value × Value) (mem : e ∈ t) (x : Binary64) (key : e.1 = .number x)
      (fraction : x.isWhole = false)
  | tooSmall (e : Value × Value) (mem : e ∈ t) (i : Int) (key : e.1.integer? = some i)
      (small : i < 1)
  | tooLarge (e : Value × Value) (mem : e ∈ t) (i : Int) (key : e.1.integer? = some i)
      (large : t.length < i)
  | repeated (twice : ¬ (t.map fun e => e.1.integer?).Nodup)
  | gap (i : Nat) (lt : i < t.length) (absent : ∀ e ∈ t, e.1.integer? ≠ some ((i + 1 : Nat) : Int))

theorem slot?_eq_some_iff_integer? :
    slot? n k = some j ↔ k.integer? = some ((j + 1 : Nat) : Int) ∧ j < n := by
  rw [slot?_eq_some_iff, Value.integer?, Option.bind_eq_some_iff]
  constructor
  · rintro ⟨x, rfl, hi, hj⟩
    exact ⟨⟨x, rfl, hi⟩, hj⟩
  · rintro ⟨⟨x, hx, hi⟩, hj⟩
    refine ⟨x, ?_, hi, hj⟩
    cases k <;> cases hx
    rfl

theorem number_injective : Function.Injective fun i : Nat => some ((i + 1 : Nat) : Int) := by
  intro i j h
  have := Option.some.inj h
  omega

/-- The numbers of the places that entries have. -/
theorem map_integer?_of_slots {js : List Nat}
    (h : List.Forall₂ (fun e j => slot? n e.1 = some j) t js) :
    (t.map fun e => e.1.integer?) = js.map fun j => some ((j + 1 : Nat) : Int) := by
  refine List.forall₂_eq_eq_eq ▸ List.forall₂_map_left_iff.mpr (List.forall₂_map_right_iff.mpr ?_)
  exact h.imp fun e j here => (slot?_eq_some_iff_integer?.mp here).1

theorem counts_iff_of_slots {js : List Nat}
    (h : List.Forall₂ (fun e j => slot? t.length e.1 = some j) t js) :
    Counts t ↔ js.Perm (List.range t.length) := by
  rw [Counts, map_integer?_of_slots h]
  exact List.map_perm_map_iff number_injective

theorem IsSequence.counts {js : List Nat} (h : IsSequence t vs js) : Counts t :=
  (counts_iff_of_slots h.slots).mpr h.perm

theorem exists_slots_of_counts (h : Counts t) :
    ∃ js, List.Forall₂ (fun e j => slot? t.length e.1 = some j) t js := by
  refine exists_forall₂ fun e he => ?_
  have number := h.mem_iff.mp (List.mem_map_of_mem (f := fun e => e.1.integer?) he)
  obtain ⟨j, hj, here⟩ := List.mem_map.mp number
  exact ⟨j, slot?_eq_some_iff_integer?.mpr ⟨here.symm, List.mem_range.mp hj⟩⟩

/-- A table is a sequence exactly if its keys count its entries. -/
theorem exists_sequence?_iff : (∃ vs, sequence? t = some vs) ↔ Counts t := by
  constructor
  · rintro ⟨vs, h⟩
    obtain ⟨js, sequence⟩ := isSequence_of_sequence? h
    exact sequence.counts
  · intro h
    obtain ⟨js, hjs⟩ := exists_slots_of_counts h
    exact exists_sequence? ((counts_iff_of_slots hjs).mp h) hjs

/-! ## Keys that do not -/

/-- Entries that all have different places fill all places. -/
theorem counts_of_slots {js : List Nat}
    (h : List.Forall₂ (fun e j => slot? t.length e.1 = some j) t js)
    (nodup : (t.map fun e => e.1.integer?).Nodup) : Counts t := by
  rw [map_integer?_of_slots h, List.nodup_map_iff number_injective] at nodup
  have below : js ⊆ List.range t.length := by
    intro j hj
    obtain ⟨e, -, here⟩ := exists_mem_of_forall₂ h hj
    exact List.mem_range.mpr (slot?_lt here)
  have counted := List.length_range.trans h.length_eq
  exact (counts_iff_of_slots h).mpr
    ((List.subperm_of_subset nodup below).perm_of_length_le (Nat.le_of_eq counted))

/-- A key without a place is no number, not whole, too small or too large. -/
theorem miscounts_of_slot? {e : Value × Value} (he : e ∈ t) (h : slot? t.length e.1 = none) :
    Miscounts t := by
  obtain ⟨k, v⟩ := e
  cases hk : k.number? with
  | none => exact .noNumber _ he hk
  | some x =>
      obtain rfl : k = .number x := by
        cases k <;> cases hk
        rfl
      cases hx : x.toInt? with
      | none => exact .notWhole _ he x rfl (Binary.toInt?_eq_none_iff.mp hx)
      | some i =>
          rw [slot?_number, hx, Option.bind_some] at h
          split at h
          · cases h
          · by_cases small : i < 1
            · exact .tooSmall _ he i hx small
            · exact .tooLarge _ he i hx (by omega)

theorem not_counts_of_slot? {e : Value × Value} (he : e ∈ t) (h : slot? t.length e.1 = none) :
    ¬ Counts t := by
  intro counts
  obtain ⟨js, hjs⟩ := exists_slots_of_counts counts
  obtain ⟨j, -, here⟩ := exists_mem_of_forall₂ hjs.flip he
  cases h.symm.trans here

theorem slot?_eq_none_of_integer? {i : Int} (h : k.integer? = some i) (hi : i < 1 ∨ n < i) :
    slot? n k = none := by
  refine Option.eq_none_iff_forall_ne_some.mpr fun j here => ?_
  obtain ⟨number, hj⟩ := slot?_eq_some_iff_integer?.mp here
  have := Option.some.inj (h.symm.trans number)
  omega

theorem miscounts_iff : Miscounts t ↔ ¬ Counts t := by
  constructor
  · rintro (⟨e, he, key⟩ | ⟨e, he, x, key, fraction⟩ | ⟨e, he, i, key, small⟩ |
      ⟨e, he, i, key, large⟩ | twice | ⟨i, lt, absent⟩)
    · refine not_counts_of_slot? he ?_
      rw [slot?, key]
      rfl
    · refine not_counts_of_slot? he ?_
      rw [key, slot?_number, Binary.toInt?_eq_none_iff.mpr fraction]
      rfl
    · exact not_counts_of_slot? he (slot?_eq_none_of_integer? key (.inl small))
    · exact not_counts_of_slot? he (slot?_eq_none_of_integer? key (.inr large))
    · intro counts
      exact twice (counts.nodup_iff.mpr (List.Nodup.map number_injective List.nodup_range))
    · intro counts
      have number := counts.mem_iff.mpr (List.mem_map_of_mem (List.mem_range.mpr lt))
      obtain ⟨e, he, here⟩ := List.mem_map.mp number
      exact absent e he here
  · intro not
    by_cases all : ∀ e ∈ t, ∃ j, slot? t.length e.1 = some j
    · obtain ⟨js, hjs⟩ := exists_forall₂ all
      exact .repeated fun nodup => not (counts_of_slots hjs nodup)
    · push Not at all
      obtain ⟨e, he, none⟩ := all
      exact miscounts_of_slot? he (Option.eq_none_iff_forall_ne_some.mpr none)

/-! ## Reading words -/

/-- How it ended to put the values of a table into places. -/
inductive Reading where
  /-- A key stands for no place. -/
  | refused
  /-- A value was to be put outside of the places. -/
  | outside
  | filled (slots : List (Option Value))

/-- Whether a number is refused as the number of a place, by comparisons alone. -/
def noPlace (n : Nat) (x : Binary64) : Bool :=
  !x.isWhole || x.less (.ofInt 1) || Binary.less (.ofInt n) x

/-- Put each value into the place that its key is when cast to a word. -/
def readWords (slots : List (Option Value)) : List (Value × Value) → Reading
  | [] => .filled slots
  | (k, v) :: rest =>
      match k.number? with
      | none => .refused
      | some x =>
          if noPlace slots.length x then .refused
          else if 0 < x.toWord ∧ x.toWord - 1 < slots.length then
            readWords (slots.set (x.toWord - 1) (some v)) rest
          else .outside

/-- A reading that stays inside of the places: they are filled, or a key is refused. -/
def Reading.ofOption : Option (List (Option Value)) → Reading
  | none => .refused
  | some slots => .filled slots

theorem one_le_places : 1 ≤ places := by decide +kernel

theorem places_le_lastWord : places ≤ Binary.lastWord := by decide +kernel

/-- The comparisons refuse the numbers that stand for no place. -/
theorem noPlace_iff (hn : n ≤ places) {x : Binary64} :
    noPlace n x = true ↔ slot? n (.number x) = none := by
  rw [noPlace, slot?_number]
  cases hx : x.toInt? with
  | none =>
      rw [Binary.toInt?_eq_none_iff.mp hx]
      exact iff_of_true rfl rfl
  | some i =>
      have whole : x.isWhole = true := by
        rw [← Bool.not_eq_false, ← Binary.toInt?_eq_none_iff, hx]
        exact Option.some_ne_none i
      have first := Binary.less_iff_of_toInt? hx (toInt?_ofInt one_le_places)
      have last := Binary.less_iff_of_toInt? (toInt?_ofInt hn) hx
      rw [whole, Bool.not_true, Bool.false_or, Bool.or_eq_true, Option.bind_some]
      constructor
      · rintro (small | large)
        · exact if_neg (by have := first.mp small; omega)
        · exact if_neg (by have := last.mp large; omega)
      · intro none
        split at none
        · cases none
        · by_cases small : i < 1
          · exact .inl (first.mpr small)
          · exact .inr (last.mpr (by omega))

/-- A number that stands for a place is the word after the place. -/
theorem toWord_of_slot? (hn : n ≤ places) {x : Binary64} (h : slot? n (.number x) = some j) :
    x.toWord = j + 1 := by
  obtain ⟨integer, hj⟩ := slot?_eq_some_iff_integer?.mp h
  have bound := places_le_lastWord
  rw [Binary.toWord_of_toInt? integer, Int.toNat_natCast]
  exact Nat.min_eq_left (by omega)

/-- As long as keys tell the places apart, reading words never writes outside of them. -/
theorem readWords_eq {slots : List (Option Value)} (h : slots.length ≤ places) (t : Table) :
    readWords slots t = .ofOption (fill slots t) := by
  induction t generalizing slots with
  | nil => rfl
  | cons e rest ih =>
      obtain ⟨k, v⟩ := e
      rw [readWords, fill]
      cases hk : k.number? with
      | none =>
          rw [slot?, hk]
          rfl
      | some x =>
          obtain rfl : k = .number x := by
            cases k <;> cases hk
            rfl
          cases hj : slot? slots.length (.number x) with
          | none => exact if_pos ((noPlace_iff h).mpr hj)
          | some j =>
              have allowed : ¬ noPlace slots.length x = true := by
                rw [noPlace_iff h, hj]
                exact Option.some_ne_none j
              have word := toWord_of_slot? h hj
              have inside : 0 < x.toWord ∧ x.toWord - 1 < slots.length := by
                have := slot?_lt hj
                omega
              dsimp only
              rw [if_neg allowed, if_pos inside, word, Nat.add_sub_cancel]
              exact ih (by rwa [List.length_set])

/-! ## Sequences -/

/-- What reading a table as a sequence of values gives. -/
structure Recovers (t : Table) : Prop where
  /-- There are values exactly if the keys are the numbers of the entries. -/
  counted : (∃ vs, sequence? t = some vs) ↔ Counts t
  length_eq : ∀ vs, sequence? t = some vs → vs.length = t.length
  /-- At each place is the value that the table has under the number of the place. -/
  value : ∀ vs, sequence? t = some vs → ∀ i, i < t.length →
    ∃ e ∈ t, e.1.integer? = some ((i + 1 : Nat) : Int) ∧ vs[i]? = some e.2 ∧
      t.get? (.ofInt (i + 1 : Nat)) = some e.2
  none_iff : sequence? t = none ↔ Miscounts t
  /-- Reading words puts the values into the same places, or refuses the same tables. -/
  words : readWords (List.replicate t.length none) t =
    .ofOption (fill (List.replicate t.length none) t)
  inside : readWords (List.replicate t.length none) t ≠ .outside

/-- Reading tables as sequences is exact, and gives back the lists that tables are made of. -/
theorem sequence_exact :
    (∀ t : Table, t.length ≤ places → Recovers t) ∧
      ∀ vs : List Value, vs.length ≤ places → sequence? (ofSequence vs) = some vs := by
  refine ⟨fun t small => ?_, fun vs small => sequence?_ofSequence small⟩
  have empty : (List.replicate t.length (none : Option Value)).length ≤ places := by
    rwa [List.length_replicate]
  have words := readWords_eq empty t
  refine ⟨exists_sequence?_iff, ?_, ?_, ?_, words, ?_⟩
  · intro vs h
    obtain ⟨js, sequence⟩ := isSequence_of_sequence? h
    exact sequence.length_eq
  · intro vs h i hi
    obtain ⟨js, sequence⟩ := isSequence_of_sequence? h
    obtain ⟨e, he, here⟩ := sequence.exists_entry hi
    obtain ⟨j, here', value⟩ := sequence.exists_place he
    cases here.symm.trans here'
    refine ⟨e, he, (slot?_eq_some_iff_integer?.mp here).1, value, ?_⟩
    rw [sequence.get?_eq, slot?_ofInt hi small]
    exact value
  · rw [miscounts_iff, ← exists_sequence?_iff, ← Option.isSome_iff_exists, Bool.not_eq_true,
      Option.isSome_eq_false_iff, Option.isNone_iff_eq_none]
  · rw [words]
    cases fill (List.replicate t.length none) t <;> exact nofun

/-- The towns of a table that lists them out of order. -/
theorem sequence_exact_towns :
    let towns : Table := [(.ofInt 2, .string "Bern"), (.ofInt 1, .string "Aarau")]
    let rivers : List Value := [.string "Aare", .string "Reuss"]
    (towns.length ≤ places ∧ Recovers towns ∧ Counts towns) ∧
      rivers.length ≤ places ∧ sequence? (ofSequence rivers) = some rivers := by
  intro towns rivers
  have small : towns.length ≤ places := by decide +kernel
  have few : rivers.length ≤ places := by decide +kernel
  exact ⟨⟨small, sequence_exact.1 towns small, by decide +kernel⟩, few, sequence_exact.2 rivers few⟩

end Table

end HostBridge.Script
