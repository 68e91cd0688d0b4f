import HostBridge.Proofs.Converter.RoundTrip
import HostBridge.Proofs.Converter.Rules
import HostBridge.Proofs.Script.Likeness

/-!
# Natural forms lose nothing

A value that scripts make has a natural form unless nil is in the way, and the form becomes
a value that is like the first.  Each table in the value is taken for a sequence or for a
dictionary by itself.  The way back makes a sequence from its values, and writes a
dictionary entry by entry, where the keys must be told apart for no entry to be lost.

The induction is on what it is to be made by scripts, as far as that matters (`Shaped`).
-/

namespace HostBridge.Converter.Standard

open Script (Table Made Shaped Alike)
open Script.Table (written written_of_pairwise)
open Script.Value (HoldsNil Counted)

variable {t : Table} {v : Script.Value} {n : Host.Value}

/-! ## Values without natural form -/

theorem natural_nil : natural [] .nil = none := by rw [natural]

theorem survives_scalar (h : v.table? = none) (present : v ≠ .nil) : Survives v := by
  cases v with
  | nil => exact absurd rfl present
  | boolean b => exact survives_boolean b
  | number x => exact survives_number x
  | string s => exact survives_string s
  | table t => cases h

theorem survives_of_isKey (h : v.IsKey) : Survives v := by
  refine survives_scalar h.table?_eq_none ?_
  rintro rfl
  exact h.elim

theorem Survives.natural_ne_none (h : Survives v) : natural [] v ≠ none := by
  obtain ⟨r, hr, -⟩ := h
  rw [hr]
  exact nofun

/-- A table whose keys have natural forms has one if its values do. -/
theorem natural_table_eq_none_iff (keys : ∀ e ∈ t, natural [] e.1 ≠ none) :
    natural [] (.table t) = none ↔ ∃ e ∈ t, natural [] e.2 = none := by
  cases hs : Table.sequence? t with
  | some items =>
      obtain ⟨js, sequence⟩ := Table.isSequence_of_sequence? hs
      rw [natural_of_sequence hs, Option.map_eq_none_iff, mapM_eq_none_iff]
      simp only [toHost_any]
      constructor
      · rintro ⟨item, hi, refused⟩
        obtain ⟨k, hk⟩ := Table.mem_of_sequence? hs hi
        exact ⟨(k, item), hk, refused⟩
      · rintro ⟨e, he, refused⟩
        obtain ⟨j, -, hj⟩ := sequence.exists_place he
        exact ⟨e.2, List.mem_of_getElem? hj, refused⟩
  | none =>
      rw [natural_of_dictionary hs, Option.map_eq_none_iff, mapM_eq_none_iff]
      constructor
      · rintro ⟨e, he, refused⟩
        exact ⟨e, he, (entryBy_eq_none_iff.mp refused).resolve_left (keys e he)⟩
      · rintro ⟨e, he, refused⟩
        exact ⟨e, he, entryBy_eq_none_iff.mpr (.inr refused)⟩

/-- The natural form of a table, by whether it is a sequence. -/
inductive NaturalTable (t : Table) : Host.Value → Prop where
  | sequence {items : List Script.Value} {rs : List Host.Value}
      (hs : Table.sequence? t = some items)
      (h : List.Forall₂ (fun v r => natural [] v = some r) items rs) : NaturalTable t (.list rs)
  | dictionary {rs : List (Host.Value × Host.Value)} (hs : Table.sequence? t = none)
      (h : List.Forall₂ (fun e r => natural [] e.1 = some r.1 ∧ natural [] e.2 = some r.2) t rs) :
      NaturalTable t (.map rs)

theorem naturalTable_of_natural (h : natural [] (.table t) = some n) : NaturalTable t n := by
  cases hs : Table.sequence? t with
  | some items =>
      rw [natural_of_sequence hs] at h
      obtain ⟨rs, hrs, rfl⟩ := Option.map_eq_some_iff.mp h
      simp only [toHost_any] at hrs
      exact .sequence hs (mapM_eq_some_iff.mp hrs)
  | none =>
      rw [natural_of_dictionary hs] at h
      obtain ⟨rs, hrs, rfl⟩ := Option.map_eq_some_iff.mp h
      exact .dictionary hs ((mapM_eq_some_iff.mp hrs).imp fun _ _ => entryBy_eq_some_iff.mp)

/-- Only nil has no natural form, and what holds nil. -/
theorem natural_eq_none_iff (h : Shaped v) :
    natural [] v = none ↔ v = .nil ∨ HoldsNil v := by
  induction h with
  | @scalar v h =>
      constructor
      · intro refused
        by_contra present
        rw [not_or] at present
        exact (survives_scalar h present.1).natural_ne_none refused
      · rintro (rfl | holds)
        · exact natural_nil
        · cases holds <;> cases h
  | table keys _ _ ih =>
      rw [natural_table_eq_none_iff fun e he => (survives_of_isKey (keys e he)).natural_ne_none]
      constructor
      · rintro ⟨e, he, refused⟩
        exact .inr (Script.Value.holdsNil_table_iff.mpr ⟨e, he, (ih e he).mp refused⟩)
      · rintro (same | holds)
        · cases same
        · obtain ⟨e, he, holds⟩ := Script.Value.holdsNil_table_iff.mp holds
          exact ⟨e, he, (ih e he).mpr holds⟩

/-! ## There and back -/

/-- The host value becomes a script value that is like the first, if numbers count the
entries of its tables. -/
def ReturnsAlike (v : Script.Value) (n : Host.Value) : Prop :=
  ∃ w, toScript [] n = .ok w ∧ (v.Counted → Alike v w)

/-- A sequence returns if its items do. -/
theorem returnsAlike_sequence {items : List Script.Value} {rs : List Host.Value}
    (hs : Table.sequence? t = some items)
    (converted : List.Forall₂ (fun item r => natural [] item = some r) items rs)
    (each : ∀ e ∈ t, ∀ r, natural [] e.2 = some r → ReturnsAlike e.2 r) :
    ReturnsAlike (.table t) (.list rs) := by
  have item_of {P : Script.Value → Prop} (h : ∀ e ∈ t, P e.2) : ∀ item ∈ items, P item := by
    intro item hi
    obtain ⟨k, hk⟩ := Table.mem_of_sequence? hs hi
    exact h (k, item) hk
  have each_item : ∀ item ∈ items, ∀ r, natural [] item = some r →
      ∃ w, toScript [] r = .ok w ∧ (item.Counted → Alike item w) := item_of each
  obtain ⟨ws, back, alike⟩ := exists_forall₂_of_forall₂ converted each_item
  refine ⟨.table (Table.ofSequence ws), ?_, fun counted => ?_⟩
  · rw [toScript_list, mapM_eq_ok_iff.mpr back]
    rfl
  · cases counted with
    | scalar h => cases h
    | table _ values =>
        have pairs := (List.forall₂_and_left items ws).mpr ⟨item_of values, alike⟩
        exact Table.alike_of_sequence hs (pairs.imp fun _ _ h => h.2 h.1)

/-- A dictionary returns if its values do.  It is written entry by entry, and no key is
written twice. -/
theorem returnsAlike_dictionary {rs : List (Host.Value × Host.Value)}
    (keys : ∀ e ∈ t, e.1.IsKey) (apart : t.length ≤ Table.places → t.Apart)
    (converted : List.Forall₂
      (fun e r => natural [] e.1 = some r.1 ∧ natural [] e.2 = some r.2) t rs)
    (each : ∀ e ∈ t, ∀ r, natural [] e.2 = some r → ReturnsAlike e.2 r) :
    ReturnsAlike (.table t) (.map rs) := by
  have entry : ∀ e ∈ t, ∀ r : Host.Value × Host.Value,
      natural [] e.1 = some r.1 ∧ natural [] e.2 = some r.2 →
      ∃ d : Script.Value × Script.Value,
        (toScript [] r.1 = .ok d.1 ∧ toScript [] r.2 = .ok d.2) ∧
        d.1 = e.1 ∧ (e.2.Counted → Alike e.2 d.2) := by
    rintro e he r ⟨hk, hv⟩
    obtain ⟨r', hr', back⟩ := survives_of_isKey (keys e he)
    cases hk.symm.trans hr'
    obtain ⟨w, hw, alike⟩ := each e he r.2 hv
    exact ⟨(e.1, w), ⟨back, hw⟩, rfl, alike⟩
  obtain ⟨es, back, same⟩ := exists_forall₂_of_forall₂ converted entry
  refine ⟨.table (written es), toScript_map_iff.mpr ⟨es, back, rfl⟩, fun counted => ?_⟩
  cases counted with
  | scalar h => cases h
  | table few values =>
      have pairs := (List.forall₂_and_left t es).mpr ⟨values, same⟩
      have present : ∀ d ∈ es, d.1.isNil = false := by
        intro d hd
        obtain ⟨e, he, key, -⟩ := exists_mem_of_forall₂ same hd
        rw [key]
        exact (keys e he).isNil_eq_false
      have once : es.Pairwise fun a b => a.1.equal b.1 = false := by
        refine pairwise_of_forall₂ same (apart few) ?_
        intro a d b d' ha hb ne
        rw [ha.1, hb.1]
        exact ne
      rw [written_of_pairwise present once]
      exact Table.alike_of_entries (pairs.imp fun _ _ h => ⟨h.2.1, h.2.2 h.1⟩)

theorem returnsAlike_of_natural (h : Shaped v) (hn : natural [] v = some n) : ReturnsAlike v n := by
  induction h generalizing n with
  | @scalar v h =>
      have present : v ≠ .nil := by
        rintro rfl
        cases natural_nil.symm.trans hn
      obtain ⟨r, hr, back⟩ := survives_scalar h present
      cases hn.symm.trans hr
      exact ⟨v, back, fun _ => .scalar h⟩
  | @table t keys _ apart ih =>
      have each : ∀ e ∈ t, ∀ r, natural [] e.2 = some r → ReturnsAlike e.2 r :=
        fun e he _ => ih e he
      cases naturalTable_of_natural hn with
      | sequence hs converted => exact returnsAlike_sequence hs converted each
      | dictionary _ converted => exact returnsAlike_dictionary keys apart converted each

/-- Of the values that scripts make, only nil has no natural form, and what holds nil.  The
form of any other becomes a value that is like the first, as long as there are numbers to
count the entries of each table. -/
theorem natural_lossless (made : Made v) :
    ((Converter.standard []).toHost v .any = none ↔ v = .nil ∨ HoldsNil v) ∧
    ∀ n, (Converter.standard []).toHost v .any = some n →
      ∃ w, (Converter.standard []).toScript n = .ok w ∧ (v.Counted → Alike v w) := by
  have natural_form : (Converter.standard []).toHost v .any = natural [] v := toHost_any v
  rw [natural_form]
  exact ⟨natural_eq_none_iff made.shaped, fun n => returnsAlike_of_natural made.shaped⟩

/-- Two voices, the second written before the first. -/
def voices : Table :=
  Table.insert (Table.insert [] (.ofInt 2) (.string "alto")) (.ofInt 1) (.string "soprano")

/-- A stop with its voices. -/
def stop : Table :=
  Table.insert (Table.insert [] (.boolean true) (.number (.zero true)))
    (.string "voices") (.table voices)

theorem made_voices : Made (.table voices) :=
  .insert (.insert (.sequence (List.forall_mem_nil _)) (Script.Value.isKey_ofInt 2) (.scalar rfl))
    (Script.Value.isKey_ofInt 1) (.scalar rfl)

theorem made_stop : Made (.table stop) :=
  .insert (.insert (.sequence (List.forall_mem_nil _)) trivial (.scalar rfl)) trivial made_voices

/-- Nil is not in the way, and numbers count the entries. -/
theorem unhindered_stop :
    ¬ (Script.Value.table stop = .nil ∨ HoldsNil (.table stop)) ∧
      (Script.Value.table stop).Counted := by
  have scalar (v : Script.Value) (h : v.table? = none) (present : v ≠ .nil) :
      ¬ (v = .nil ∨ HoldsNil v) ∧ v.Counted := by
    refine ⟨?_, .scalar h⟩
    rintro (rfl | holds)
    · exact present rfl
    · cases holds <;> cases h
  have table (t : Table) (few : t.length ≤ Table.places)
      (h : ∀ e ∈ t, True ∧ ¬ (e.2 = .nil ∨ HoldsNil e.2) ∧ e.2.Counted) :
      ¬ (Script.Value.table t = .nil ∨ HoldsNil (.table t)) ∧ (Script.Value.table t).Counted := by
    refine ⟨?_, .table few fun e he => (h e he).2.2⟩
    rw [Script.Value.holdsNil_table_iff]
    rintro (same | ⟨e, he, holds⟩)
    · cases same
    · exact (h e he).2.1 holds
  have entry {t : Table} {k v : Script.Value} := Table.forall_mem_insert (t := t) (k := k) (v := v)
    (P := fun _ => True) (Q := fun v => ¬ (v = .nil ∨ HoldsNil v) ∧ v.Counted)
  have voiced := table voices (by decide +kernel)
    (entry (entry (List.forall_mem_nil _) trivial (scalar _ rfl nofun)) trivial
      (scalar _ rfl nofun))
  exact table stop (by decide +kernel)
    (entry (entry (List.forall_mem_nil _) trivial (scalar _ rfl nofun)) trivial voiced)

/-- The stop comes back, and its voices do. -/
theorem natural_lossless_stop :
    Made (.table stop) ∧ ∃ n w, (Converter.standard []).toHost (.table stop) .any = some n ∧
      (Converter.standard []).toScript n = .ok w ∧ Alike (.table stop) w := by
  obtain ⟨none_iff, back⟩ := natural_lossless made_stop
  obtain ⟨n, hn⟩ := Option.ne_none_iff_exists'.mp fun none => unhindered_stop.1 (none_iff.mp none)
  obtain ⟨w, hw, alike⟩ := back n hn
  exact ⟨made_stop, n, w, hn, hw, alike unhindered_stop.2⟩

end HostBridge.Converter.Standard
