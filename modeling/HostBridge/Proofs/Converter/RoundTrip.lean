import HostBridge.Proofs.Converter.Soundness
import HostBridge.Proofs.Script.Sequence

/-!
# There and back

A script value *survives* if its natural form is converted back to the very same value.
Truth values, numbers and texts do.  So does a sequence of values that do, as long as its
keys count exactly, and a record of values that do, which is a table with texts as keys.

A table is told to be a sequence by its shape.  The empty table is both a sequence and a
record, and goes through as an empty list.
-/

namespace HostBridge

namespace Script

/-! ## Records -/

/-- The table with texts as keys. -/
def record (fields : List (String × Value)) : Table := fields.map fun f => (.string f.1, f.2)

theorem Table.sequence?_of_string (s : String) (v : Value) (rest : Table) :
    sequence? ((.string s, v) :: rest) = none := by
  simp [sequence?, fill, slot?, Value.number?]

end Script

namespace Converter.Standard

open Script (Table record)
open Script.Table (written written_of_pairwise)

/-- Records are written as they are. -/
theorem written_record {fields : List (String × Script.Value)}
    (h : (fields.map Prod.fst).Nodup) : written (record fields) = record fields := by
  refine written_of_pairwise ?_ ?_
  · intro e he
    obtain ⟨f, -, rfl⟩ := List.mem_map.mp he
    rfl
  · exact List.pairwise_map.mpr ((List.pairwise_map.mp h).imp beq_eq_false_iff_ne.mpr)

/-! ## Values that survive -/

/-- The natural form of the value is converted back to the value. -/
def Survives (v : Script.Value) : Prop :=
  ∃ r, natural [] v = some r ∧ toScript [] r = .ok v

theorem survives_boolean (b : Bool) : Survives (.boolean b) :=
  ⟨.boolean b, natural_eq_some_iff.mpr (.boolean b), toScript_boolean b⟩

theorem survives_number (x : Binary64) : Survives (.number x) :=
  ⟨.float x, natural_eq_some_iff.mpr (.number x), toScript_float x⟩

theorem survives_string (s : String) : Survives (.string s) :=
  ⟨.string s, natural_eq_some_iff.mpr (.string s), toScript_string s⟩

theorem exists_items {values : List Script.Value} (h : ∀ v ∈ values, Survives v) :
    ∃ rs, List.Forall₂ (fun v r => natural [] v = some r) values rs ∧
      rs.mapM (toScript []) = .ok values := by
  induction values with
  | nil => exact ⟨[], .nil, rfl⟩
  | cons v rest ih =>
      obtain ⟨r, hr, hv⟩ := h v (List.mem_cons_self ..)
      obtain ⟨rs, hrs, hrest⟩ := ih fun w hw => h w (List.mem_cons_of_mem _ hw)
      refine ⟨r :: rs, .cons hr hrs, ?_⟩
      rw [List.mapM_cons, hv, hrest]
      rfl

/-- A sequence survives if its values do. -/
theorem survives_sequence {values : List Script.Value} (hl : values.length ≤ Table.places)
    (h : ∀ v ∈ values, Survives v) : Survives (.table (Table.ofSequence values)) := by
  obtain ⟨rs, hrs, back⟩ := exists_items h
  simp only [← toHost_any] at hrs
  refine ⟨.list rs, natural_eq_some_iff.mpr (.list ?_), ?_⟩
  · exact toHostItems_eq_some_iff.mpr ⟨values, Table.sequence?_ofSequence hl, hrs⟩
  · rw [toScript_list, back]
    rfl

/-- A map with texts as keys becomes a record. -/
theorem toScript_record {fields : List (String × Script.Value)}
    {entries : List (Host.Value × Host.Value)} (hd : (fields.map Prod.fst).Nodup)
    (h : List.Forall₂ (fun f e => e.1 = .string f.1 ∧ toScript [] e.2 = .ok f.2) fields entries) :
    toScript [] (.map entries) = .ok (.table (record fields)) := by
  have converted : (entries.mapM fun (e : Host.Value × Host.Value) => do
      let k ← toScript [] e.1
      let v ← toScript [] e.2
      return (k, v)) = .ok (record fields) := by
    clear hd
    induction h with
    | nil => rfl
    | cons he _ ih =>
        rw [List.mapM_cons, ih]
        simp only [he.1, he.2, toScript_string]
        rfl
  rw [toScript_map, converted]
  show Except.ok (Script.Value.table (written (record fields))) = _
  rw [written_record hd]

theorem exists_entries {fields : List (String × Script.Value)} (h : ∀ f ∈ fields, Survives f.2) :
    ∃ entries : List (Host.Value × Host.Value),
      List.Forall₂ (fun f e => e.1 = .string f.1 ∧ natural [] f.2 = some e.2 ∧
        toScript [] e.2 = .ok f.2) fields entries := by
  induction fields with
  | nil => exact ⟨[], .nil⟩
  | cons f rest ih =>
      obtain ⟨r, hr, hv⟩ := h f (List.mem_cons_self ..)
      obtain ⟨entries, he⟩ := ih fun g hg => h g (List.mem_cons_of_mem _ hg)
      exact ⟨(.string f.1, r) :: entries, .cons ⟨rfl, hr, hv⟩ he⟩

/-- A record survives if its values do. -/
theorem survives_record {fields : List (String × Script.Value)} (hd : (fields.map Prod.fst).Nodup)
    (h : ∀ f ∈ fields, Survives f.2) : Survives (.table (record fields)) := by
  cases fields with
  | nil => exact survives_sequence (Nat.zero_le _) (List.forall_mem_nil _)
  | cons f rest =>
      obtain ⟨entries, he⟩ := exists_entries h
      refine ⟨.map entries, natural_eq_some_iff.mpr (.map ?_ ?_), toScript_record hd ?_⟩
      · rw [toHostItems.eq_def]
        split
        · rename_i items hs
          cases (Table.sequence?_of_string ..).symm.trans hs
        · rfl
      · refine List.forall₂_map_left_iff.mpr (he.imp fun g e hg => ⟨?_, hg.2.1⟩)
        rw [hg.1]
        exact natural_eq_some_iff.mpr (.string g.1)
      · exact he.imp fun g e hg => ⟨hg.1, hg.2.2⟩

end Converter.Standard

end HostBridge
