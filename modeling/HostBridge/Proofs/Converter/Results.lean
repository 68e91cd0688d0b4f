import HostBridge.Proofs.Converter.Plain
import HostBridge.Proofs.Host.Occurrence
import HostBridge.Proofs.Script.Likeness
import HostBridge.Proofs.Script.Maps

/-!
# What scripts get for host values

The only host values that scripts have nothing like are objects.  `Host.Value.objects` lists
the objects in a value from left to right, the key of an entry before its value.  The
conversion without rules fails exactly if there is one, and names the class of the first
(`failure?_toScript`).  It does so even where the table would lose the entry.

Where it succeeds, tables are made in two ways, from sequences and by writing entries.  So
what is to be shown of the tables in an answer, at all depths, is shown of these two
(`every_of_toScript`).
-/

namespace HostBridge

open scoped Binary

/-! ## Objects in a value -/

namespace Host.Value

mutual

/-- The objects in a value, from left to right. -/
def objects : Value → List Object
  | .array items => objectsOfItems items
  | .list items => objectsOfItems items
  | .multi items => objectsOfItems items
  | .map entries => objectsOfEntries entries
  | .object o => [o]
  | _ => []
termination_by structural v => v

/-- The objects in items, in order. -/
def objectsOfItems : List Value → List Object
  | [] => []
  | v :: rest => v.objects ++ objectsOfItems rest
termination_by structural vs => vs

/-- The objects in entries, those in a key before those in its value. -/
def objectsOfEntries : List (Value × Value) → List Object
  | [] => []
  | (k, v) :: rest => (k.objects ++ v.objects) ++ objectsOfEntries rest
termination_by structural es => es

end

theorem objectsOfItems_eq (items : List Value) : objectsOfItems items = items.flatMap objects := by
  induction items with
  | nil => rfl
  | cons v rest ih => rw [objectsOfItems, ih, List.flatMap_cons]

theorem objects_of_items {v : Value} {items : List Value} (h : v.items? = some items) :
    v.objects = items.flatMap objects := by
  rw [← objectsOfItems_eq]
  cases v with
  | array => cases h; rfl
  | list => cases h; rfl
  | multi => cases h; rfl
  | _ => cases h

theorem objects_map (entries : List (Value × Value)) :
    (map entries).objects = entries.flatMap fun e => e.1.objects ++ e.2.objects := by
  show objectsOfEntries entries = _
  induction entries with
  | nil => rfl
  | cons e rest ih => rw [objectsOfEntries, ih, List.flatMap_cons]

/-- The objects in a value are those that occur in it. -/
theorem mem_objects_iff {o : Object} {v : Value} : o ∈ v.objects ↔ (object o).Occurs v := by
  induction v using inductionOnParts with
  | scalar v hv hm =>
      rw [occurs_of_no_parts hv hm]
      cases v with
      | object o' =>
          rw [objects, List.mem_singleton, object.injEq]
      | array => cases hv
      | list => cases hv
      | multi => cases hv
      | map es => exact absurd rfl (hm es)
      | _ => exact iff_of_false List.not_mem_nil nofun
  | sequence v items hv ih =>
      have other : object o ≠ v := by
        rintro rfl
        cases hv
      rw [objects_of_items hv, List.mem_flatMap, occurs_of_items hv, or_iff_right other]
      exact exists_congr fun item => and_congr_right fun hi => ih item hi
  | map entries ih =>
      rw [objects_map, List.mem_flatMap, occurs_map, or_iff_right nofun]
      refine exists_congr fun e => and_congr_right fun he => ?_
      rw [List.mem_append, (ih e he).1, (ih e he).2]

end Host.Value

/-! ## The first failure -/

section Failures

variable {α β γ ε : Type}

/-- Why there is no answer, if there is none. -/
def failure? : Except ε α → Option ε
  | .ok _ => none
  | .error e => some e

theorem failure?_eq_some_iff {x : Except ε α} {e : ε} : failure? x = some e ↔ x = .error e := by
  cases x <;> simp [failure?]

theorem failure?_map (f : α → β) (x : Except ε α) : failure? (x.map f) = failure? x := by
  cases x <;> rfl

/-- Two computations, one after the other, fail as the first of them that does. -/
theorem failure?_pair (x : Except ε α) (y : Except ε β) :
    failure? (do
      let a ← x
      let b ← y
      return (a, b)) = (failure? x).or (failure? y) := by
  cases x with
  | error e => rfl
  | ok a => cases y <;> rfl

/-- If each element fails for the first of its causes, a list fails for the first cause of
all its elements. -/
theorem failure?_mapM {f : α → Except ε β} {causes : α → List γ} {blame : γ → ε} {xs : List α}
    (each : ∀ x ∈ xs, failure? (f x) = (causes x).head?.map blame) :
    failure? (xs.mapM f) = (xs.flatMap causes).head?.map blame := by
  induction xs with
  | nil => rfl
  | cons x xs ih =>
      obtain ⟨first, later⟩ := List.forall_mem_cons.mp each
      rw [List.mapM_cons, List.flatMap_cons, List.head?_append, Option.map_or, ← first, ← ih later]
      cases f x with
      | error e => rfl
      | ok b => cases xs.mapM f <;> rfl

end Failures

/-! ## Tables at all depths -/

namespace Script

/-- All tables have the property: the value itself, and those in keys and values of entries,
at every depth. -/
inductive Value.Every (P : Table → Prop) : Value → Prop where
  | scalar {v : Value} (h : v.table? = none) : Every P v
  | table {t : Table} (here : P t) (keys : ∀ e ∈ t, Every P e.1) (values : ∀ e ∈ t, Every P e.2) :
      Every P (.table t)

namespace Table

/-- No key is nil, and scripts tell the keys apart.  Only in a sequence that numbers do not
count two keys are equal. -/
structure WellKeyed (t : Table) : Prop where
  present : ∀ e ∈ t, e.1.isNil = false
  apart_iff : t.Apart ↔ ∀ values, t = ofSequence values → values.length ≤ places

theorem wellKeyed_ofSequence (values : List Value) : (ofSequence values).WellKeyed where
  present := fun e he => (forall_mem_ofSequence (fun _ _ => trivial) e he).1.isNil_eq_false
  apart_iff := by
    rw [apart_ofSequence_iff]
    constructor
    · intro few others same
      have length := congrArg List.length same
      rw [ofSequence, ofSequence, length_sequenceFrom, length_sequenceFrom] at length
      omega
    · exact fun h => h values rfl

theorem present_written (writes : List (Value × Value)) :
    ∀ e ∈ Table.written writes, e.1.isNil = false := by
  intro e he
  have key : e.1 ∈ firstKeys writes := map_fst_written writes ▸ List.mem_map_of_mem he
  exact (exists_of_mem_firstKeys key).1

theorem forall_mem_written {P Q : Value → Prop} {writes : List (Value × Value)}
    (h : ∀ e ∈ writes, P e.1 ∧ Q e.2) : ∀ e ∈ Table.written writes, P e.1 ∧ Q e.2 := by
  induction writes using List.reverseRecOn with
  | nil => exact List.forall_mem_nil _
  | append_singleton writes e ih =>
      rw [written_concat]
      obtain ⟨before, last⟩ := List.forall_mem_append.mp h
      obtain ⟨key, value⟩ := last e (List.mem_singleton_self e)
      exact forall_mem_insert (ih before) key value

theorem wellKeyed_written (writes : List (Value × Value)) : (Table.written writes).WellKeyed where
  present := present_written writes
  apart_iff := by
    refine iff_of_true (apart_written writes) ?_
    rintro values same
    rw [← apart_ofSequence_iff, ← same]
    exact apart_written writes

end Table

end Script

namespace Converter.Standard

open Script (Table)
open Script.Table (ofSequence places)
open Host.Value (inductionOnParts)

/-- The conversion of a value fails for the first object in it. -/
theorem failure?_toScript (v : Host.Value) :
    failure? (toScript [] v) = v.objects.head?.map fun o => .unrepresentable o.cls.name := by
  induction v using inductionOnParts with
  | scalar v hv hm =>
      cases v with
      | null => rw [toScript_null]; rfl
      | boolean b => rw [toScript_boolean]; rfl
      | integer n => rw [toScript_integer]; rfl
      | float x => rw [toScript_float]; rfl
      | string s => rw [toScript_string]; rfl
      | object o => rw [toScript_object]; rfl
      | map es => exact absurd rfl (hm es)
      | _ => cases hv
  | sequence v items hv ih =>
      rw [toScript_of_items hv, failure?_map, Host.Value.objects_of_items hv]
      exact failure?_mapM ih
  | map entries ih =>
      rw [toScript_map, failure?_map, Host.Value.objects_map]
      refine failure?_mapM fun e he => ?_
      rw [failure?_pair, (ih e he).1, (ih e he).2, List.head?_append, Option.map_or]

/-! ## Tables in an answer -/

/-- What holds of tables made from sequences and of tables that are written entry by entry
holds of all tables in an answer. -/
theorem every_of_toScript {P : Table → Prop} (sequence : ∀ values, P (ofSequence values))
    (map : ∀ entries, P (Table.written entries)) {v : Host.Value} {r : Script.Value}
    (h : toScript [] v = .ok r) : r.Every P := by
  induction v using inductionOnParts generalizing r with
  | scalar v hv hm =>
      refine .scalar ?_
      cases v with
      | null => rw [toScript_null] at h; cases h; rfl
      | boolean b => rw [toScript_boolean] at h; cases h; rfl
      | integer n => rw [toScript_integer] at h; cases h; rfl
      | float x => rw [toScript_float] at h; cases h; rfl
      | string s => rw [toScript_string] at h; cases h; rfl
      | object o => rw [toScript_object] at h; cases h
      | map es => exact absurd rfl (hm es)
      | _ => cases hv
  | sequence v items hv ih =>
      rw [toScript_of_items hv] at h
      obtain ⟨values, converted, rfl⟩ := map_eq_ok.mp h
      have every : ∀ value ∈ values, Script.Value.Every P value := by
        intro value hvalue
        obtain ⟨item, hi, h⟩ := exists_mem_of_forall₂ (mapM_eq_ok_iff.mp converted) hvalue
        exact ih item hi h
      have inside := Table.forall_mem_ofSequence every
      exact .table (sequence values) (fun e he => .scalar (inside e he).1.table?_eq_none)
        fun e he => (inside e he).2
  | map entries ih =>
      obtain ⟨es, converted, rfl⟩ := toScript_map_iff.mp h
      have every : ∀ d ∈ es, Script.Value.Every P d.1 ∧ Script.Value.Every P d.2 := by
        intro d hd
        obtain ⟨e, he, hk, hv⟩ := exists_mem_of_forall₂ converted hd
        exact ⟨(ih e he).1 hk, (ih e he).2 hv⟩
      have inside := Table.forall_mem_written every
      exact .table (map es) (fun e he => (inside e he).1) fun e he => (inside e he).2

/-- A host value has no script value exactly if an object occurs in it, at any depth, and the
failure names the class of the first object from left to right.  Every table in an answer, at
any depth, has keys that are not nil and are told apart, unless it has more items than numbers
count. -/
theorem results_exact (v : Host.Value) :
    (∀ e, (Converter.standard []).toScript v = .error e ↔
      ∃ o, v.objects.head? = some o ∧ e = .unrepresentable o.cls.name) ∧
    (∀ o, o ∈ v.objects ↔ (Host.Value.object o).Occurs v) ∧
    ((∃ e, (Converter.standard []).toScript v = .error e) ↔
      ∃ o, (Host.Value.object o).Occurs v) ∧
    ∀ r, (Converter.standard []).toScript v = .ok r → r.Every Table.WellKeyed := by
  have fails (e : ConversionError) : (Converter.standard []).toScript v = .error e ↔
      ∃ o, v.objects.head? = some o ∧ e = .unrepresentable o.cls.name := by
    show toScript [] v = .error e ↔ _
    rw [← failure?_eq_some_iff, failure?_toScript, Option.map_eq_some_iff]
    exact exists_congr fun o => and_congr_right fun _ => eq_comm
  refine ⟨fails, fun o => Host.Value.mem_objects_iff, ?_, fun r h =>
    every_of_toScript Table.wellKeyed_ofSequence Table.wellKeyed_written h⟩
  constructor
  · rintro ⟨e, h⟩
    obtain ⟨o, first, -⟩ := (fails e).mp h
    exact ⟨o, Host.Value.mem_objects_iff.mp (List.mem_of_mem_head? first)⟩
  · rintro ⟨o, h⟩
    have some_object := List.ne_nil_of_mem (Host.Value.mem_objects_iff.mpr h)
    exact ⟨_, (fails _).mpr ⟨_, List.head?_eq_some_head some_object, rfl⟩⟩

/-- A tower.  The table for it would have no entry for the bell. -/
def tower : Host.Value :=
  .map [(.null, .list [.object ⟨.root "Bell", .unit, 1⟩]),
    (.object ⟨.root "Rope", .unit, 2⟩, .null)]

/-- Changes of a peal, two of which have keys that become one. -/
def peal : Host.Value :=
  .map [(.integer 1, .list [.integer 2, .integer 1]), (.null, .boolean true),
    (.float (.ofInt 1), .multi []), (.map [(.string "call", .null)], .array [.null])]

/-- The tower has no script value because of the bell, and the peal has one. -/
theorem results_exact_tower :
    (Converter.standard []).toScript tower = .error (.unrepresentable "Bell") ∧
    ∃ r, (Converter.standard []).toScript peal = .ok r ∧ r.Every Table.WellKeyed := by
  refine ⟨((results_exact tower).1 _).mpr ⟨_, rfl, rfl⟩, ?_⟩
  obtain ⟨fails, -, -, keyed⟩ := results_exact peal
  cases h : (Converter.standard []).toScript peal with
  | error e =>
      obtain ⟨o, first, -⟩ := (fails e).mp h
      cases first
  | ok r => exact ⟨r, rfl, keyed r h⟩

end Converter.Standard

end HostBridge
