import HostBridge.Proofs.Converter.Soundness
import HostBridge.Proofs.Host.Occurrence

/-!
# Typed values there and back

A host value of a type becomes a script value, and the conversion to the type gives the
host value back.  The type is built from truth values, numbers, texts, sequences and maps.
Natural forms are left out, since the natural form of an empty table is a list, also if it
was a map.

Three things are lost on the way, and so must not occur.  Integers that numbers do not hold
are rounded, keys of a map that scripts take for equal become one, and sequences that are
not counted become tables that are none.  The last is exact: the value comes back if and
only if it is counted.

The induction is on what it is to be of a type.  `Returns` is what it shows of each part.
-/

namespace HostBridge

open scoped Binary

/-- The type is built from truth values, numbers, texts, sequences and maps. -/
def Host.Ty.IsData : Ty → Prop
  | .boolean => True
  | .integer => True
  | .float => True
  | .string => True
  | .array e => e.IsData
  | .list e => e.IsData
  | .set e => e.IsData
  | .map k v => k.IsData ∧ v.IsData
  | _ => False

namespace Converter.Standard

open Script (Table)
open Script.Table (written written_of_pairwise)
open Host (Conforms)
open Host.Value (Occurs occurs_of_items occurs_map occurs_of_no_parts counted_of_items counted_map
  counted_of_no_parts)

/-! ## Tables and sequences -/

/-- The items of a table that was made from values. -/
theorem toHostItems_ofSequence_iff {values : List Script.Value} {e : Host.Ty}
    {rs : List Host.Value} :
    toHostItems [] (Table.ofSequence values) e = some rs ↔
      values.length ≤ Table.places ∧
        List.Forall₂ (fun v r => toHost [] v e = some r) values rs := by
  rw [toHostItems_eq_some_iff, Table.sequence?_ofSequence_eq]
  by_cases few : values.length ≤ Table.places
  · rw [if_pos few, and_iff_right few]
    constructor
    · rintro ⟨_, ⟨⟩, converted⟩
      exact converted
    · intro converted
      exact ⟨values, rfl, converted⟩
  · rw [if_neg few]
    exact ⟨nofun, fun ⟨few', _⟩ => absurd few' few⟩

/-- Only null becomes nil. -/
theorem isNil_of_toScript {n : Host.Value} {v : Script.Value} (h : toScript [] n = .ok v)
    (hn : n ≠ .null) : v.isNil = false := by
  cases n with
  | null => exact absurd rfl hn
  | boolean b =>
      rw [toScript_boolean] at h
      cases h
      rfl
  | integer i =>
      rw [toScript_integer] at h
      cases h
      rfl
  | float x =>
      rw [toScript_float] at h
      cases h
      rfl
  | string s =>
      rw [toScript_string] at h
      cases h
      rfl
  | array items =>
      rw [toScript_array] at h
      obtain ⟨_, -, rfl⟩ := map_eq_ok.mp h
      rfl
  | list items =>
      rw [toScript_list] at h
      obtain ⟨_, -, rfl⟩ := map_eq_ok.mp h
      rfl
  | multi items =>
      rw [toScript_of_items rfl] at h
      obtain ⟨_, -, rfl⟩ := map_eq_ok.mp h
      rfl
  | map entries =>
      rw [toScript_map] at h
      obtain ⟨_, -, rfl⟩ := map_eq_ok.mp h
      rfl
  | object o =>
      rw [toScript_object] at h
      cases h

/-! ## What must not be lost -/

/-- Scripts tell the keys of two entries apart. -/
def KeysApart (a b : Host.Value × Host.Value) : Prop :=
  ∀ k l, toScript [] a.1 = .ok k → toScript [] b.1 = .ok l → k.equal l = false

/-- Numbers hold the integers that occur in the value, and scripts tell the keys of its maps
apart. -/
structure Portable (n : Host.Value) : Prop where
  integers : ∀ i : Int64, Occurs (.integer i) n → i.toInt.natAbs ≤ 2 ^ (53 : Nat)
  keys : ∀ entries, Occurs (.map entries) n → entries.Pairwise KeysApart

theorem Portable.of_part {n part : Host.Value} (h : Portable n)
    (hp : ∀ v, Occurs v part → Occurs v n) : Portable part :=
  ⟨fun i hi => h.integers i (hp _ hi), fun es he => h.keys es (hp _ he)⟩

theorem portable_integer {i : Int64} (h : i.toInt.natAbs ≤ 2 ^ (53 : Nat)) : Portable (.integer i) := by
  have only {v : Host.Value} (hv : Occurs v (.integer i)) : v = .integer i :=
    (occurs_of_no_parts rfl fun es same => by cases same).mp hv
  constructor
  · intro j hj
    cases only hj
    exact h
  · intro es he
    cases only he

theorem portable_of_no_parts {n : Host.Value} (hn : n.items? = none) (hm : ∀ es, n ≠ .map es)
    (hi : ∀ i, n ≠ .integer i) : Portable n := by
  constructor
  · intro i h
    exact absurd ((occurs_of_no_parts hn hm).mp h).symm (hi i)
  · intro es h
    exact absurd ((occurs_of_no_parts hn hm).mp h).symm (hm es)

theorem portable_of_items {n : Host.Value} {items : List Host.Value} (hn : n.items? = some items)
    (each : ∀ item ∈ items, Portable item) : Portable n := by
  constructor
  · intro i h
    rcases (occurs_of_items hn).mp h with rfl | ⟨item, hi, h⟩
    · cases hn
    · exact (each item hi).integers i h
  · intro es h
    rcases (occurs_of_items hn).mp h with rfl | ⟨item, hi, h⟩
    · cases hn
    · exact (each item hi).keys es h

theorem portable_map {entries : List (Host.Value × Host.Value)}
    (apart : entries.Pairwise KeysApart) (each : ∀ e ∈ entries, Portable e.1 ∧ Portable e.2) :
    Portable (.map entries) := by
  constructor
  · intro i h
    rcases occurs_map.mp h with same | ⟨e, he, h | h⟩
    · cases same
    · exact (each e he).1.integers i h
    · exact (each e he).2.integers i h
  · intro es h
    rcases occurs_map.mp h with same | ⟨e, he, h | h⟩
    · cases same
      exact apart
    · exact (each e he).1.keys es h
    · exact (each e he).2.keys es h

/-- The value becomes a script value, which is converted back to it exactly if it is
counted. -/
def Returns (n : Host.Value) (t : Host.Ty) : Prop :=
  ∃ v, toScript [] n = .ok v ∧ (toHost [] v t = some n ↔ n.Counted)

/-! ## Parts that return -/

theorem wholePart?_ofInt {i : Int64} (h : i.toInt.natAbs ≤ 2 ^ (53 : Nat)) :
    wholePart? (.ofInt i.toInt) = some i := by
  have exact : (Binary.ofInt i.toInt : Binary64).toInt? = some i.toInt :=
    Binary.toInt?_ofInt (by decide +kernel) h
  rw [wholePart?, Binary.truncate?_of_toInt? exact]
  show (if Host.Width.int64.Holds i.toInt then some (Int64.ofInt i.toInt) else none) = some i
  rw [if_pos (Host.Width.holds_toInt i), Int64.ofInt_toInt]

/-- A value without parts returns if it is converted back. -/
theorem returns_of_no_parts {n : Host.Value} {t : Host.Ty} {v : Script.Value}
    (script : toScript [] n = .ok v) (host : toHost [] v t = some n) (hn : n.items? = none)
    (hm : ∀ es, n ≠ .map es) : Returns n t :=
  ⟨v, script, iff_of_true host (counted_of_no_parts hn hm)⟩

/-- A sequence returns if its items do. -/
theorem returns_of_items {n : Host.Value} {t e : Host.Ty} {items : List Host.Value}
    (hn : n.items? = some items)
    (script : toScript [] n =
      (items.mapM (toScript [])).map fun vs => .table (Table.ofSequence vs))
    (host : ∀ table, toHost [] (.table table) t = some n ↔ toHostItems [] table e = some items)
    (each : ∀ item ∈ items, Returns item e) : Returns n t := by
  obtain ⟨vs, hvs⟩ := exists_forall₂ each
  have converted := mapM_eq_ok_iff.mpr (hvs.imp fun _ _ h => h.1)
  have back := forall₂_iff_forall_mem hvs.flip fun v item h => h.2
  refine ⟨.table (Table.ofSequence vs), ?_, ?_⟩
  · rw [script, converted]
    rfl
  · rw [host, toHostItems_ofSequence_iff, back, counted_of_items hn, hvs.length_eq]

/-- A map returns if its keys and values do, and scripts tell its keys apart. -/
theorem returns_of_entries {key val : Host.Ty} {entries : List (Host.Value × Host.Value)}
    (present : ∀ e ∈ entries, e.1 ≠ .null) (apart : entries.Pairwise KeysApart)
    (each : ∀ e ∈ entries, Returns e.1 key ∧ Returns e.2 val) :
    Returns (.map entries) (.map key val) := by
  have pairs : ∀ e ∈ entries, ∃ s : Script.Value × Script.Value,
      (toScript [] e.1 = .ok s.1 ∧ toScript [] e.2 = .ok s.2) ∧
      ((toHost [] s.1 key = some e.1 ∧ toHost [] s.2 val = some e.2) ↔
        e.1.Counted ∧ e.2.Counted) := by
    intro e he
    obtain ⟨⟨k, hk, backk⟩, ⟨v, hv, backv⟩⟩ := each e he
    exact ⟨(k, v), ⟨hk, hv⟩, and_congr backk backv⟩
  obtain ⟨es, hes⟩ := exists_forall₂ pairs
  have scripts := hes.imp fun _ _ h => h.1
  have converted : (entries.mapM fun (e : Host.Value × Host.Value) => do
      let k ← toScript [] e.1
      let v ← toScript [] e.2
      return (k, v)) = .ok es := by
    refine mapM_eq_ok_iff.mpr (scripts.imp fun e s h => ?_)
    rw [h.1, h.2]
    rfl
  have kept : written es = es := by
    refine written_of_pairwise ?_ ?_
    · intro s hs
      obtain ⟨e, he, hk, -⟩ := exists_mem_of_forall₂ scripts hs
      exact isNil_of_toScript hk (present e he)
    · exact pairwise_of_forall₂ scripts apart fun ha hb h => h _ _ ha.1 hb.1
  have back := forall₂_iff_forall_mem hes.flip fun s e h => h.2
  refine ⟨.table es, ?_, ?_⟩
  · rw [toScript_map, converted]
    show Except.ok (Script.Value.table (written es)) = _
    rw [kept]
  · rw [toHost_map_iff, back, counted_map]

/-- Values of a type return. -/
theorem returns_of_conforms {n : Host.Value} {t : Host.Ty} (typed : Conforms n t)
    (data : t.IsData) (portable : Portable n) : Returns n t := by
  induction typed with
  | boolean b =>
      exact returns_of_no_parts (toScript_boolean b) (toHost_eq_some_iff.mpr (.boolean b)) rfl nofun
  | integer i =>
      have whole := wholePart?_ofInt (portable.integers i .here)
      exact returns_of_no_parts (toScript_integer i) (toHost_eq_some_iff.mpr (.integer whole)) rfl
        nofun
  | float x =>
      exact returns_of_no_parts (toScript_float x) (toHost_eq_some_iff.mpr (.float x)) rfl nofun
  | string s =>
      exact returns_of_no_parts (toScript_string s) (toHost_eq_some_iff.mpr (.string s)) rfl nofun
  | array _ ih =>
      refine returns_of_items rfl (toScript_array _) (fun _ => toHost_array_iff) fun item hi => ?_
      exact ih item hi data (portable.of_part fun v hv => .item rfl hi hv)
  | list _ ih =>
      refine returns_of_items rfl (toScript_list _) (fun _ => toHost_list_iff) fun item hi => ?_
      exact ih item hi data (portable.of_part fun v hv => .item rfl hi hv)
  | set _ ih =>
      refine returns_of_items rfl (toScript_list _) (fun _ => toHost_set_iff) fun item hi => ?_
      exact ih item hi data (portable.of_part fun v hv => .item rfl hi hv)
  | map hk _ ihk ihv =>
      refine returns_of_entries (fun e he => (hk e he).ne_null) (portable.keys _ .here) ?_
      intro e he
      exact ⟨ihk e he data.1 (portable.of_part fun v hv => .key he hv),
        ihv e he data.2 (portable.of_part fun v hv => .value he hv)⟩
  | _ => exact data.elim

/-- A value of a type that is built from truth values, numbers, texts, sequences and maps
becomes a script value, if numbers hold its integers and scripts tell the keys of its maps
apart.  The conversion to the type then gives the very same value back, exactly if no
sequence in it has more items than there are numbers to count them. -/
theorem typed_returns {n : Host.Value} {t : Host.Ty} (typed : Conforms n t) (data : t.IsData)
    (portable : Portable n) :
    ∃ v, (Converter.standard []).toScript n = .ok v ∧
      ((Converter.standard []).toHost v t = some n ↔ n.Counted) :=
  returns_of_conforms typed data portable

/-- The winds of pipes by their lengths. -/
def flute : Host.Value :=
  .map [(.integer 8, .float (.ofInt 3)), (.integer (-4), .float (.ofInt 5))]

/-- Stops with their pipes, one of which has none. -/
def stops : Host.Value := .map [(.string "flute", .list [flute]), (.string "mute", .list [])]

theorem conforms_stops : Conforms stops (.map .string (.set (.map .integer .float))) := by
  have pipes : Conforms flute (.map .integer .float) := by
    refine .map ?_ ?_
    · exact List.forall_mem_cons.mpr ⟨.integer _, List.forall_mem_singleton.mpr (.integer _)⟩
    · exact List.forall_mem_cons.mpr ⟨.float _, List.forall_mem_singleton.mpr (.float _)⟩
  refine .map ?_ ?_
  · exact List.forall_mem_cons.mpr ⟨.string _, List.forall_mem_singleton.mpr (.string _)⟩
  · exact List.forall_mem_cons.mpr ⟨.set (List.forall_mem_singleton.mpr pipes),
      List.forall_mem_singleton.mpr (.set (List.forall_mem_nil _))⟩

theorem portable_stops : Portable stops := by
  have text (s : String) : Portable (.string s) := portable_of_no_parts rfl nofun nofun
  have wind (x : Binary64) : Portable (.float x) := portable_of_no_parts rfl nofun nofun
  have pipes : Portable flute := by
    refine portable_map (List.pairwise_pair.mpr ?_) ?_
    · intro k l hk hl
      rw [toScript_integer] at hk hl
      cases hk
      cases hl
      decide +kernel
    · exact List.forall_mem_cons.mpr ⟨⟨portable_integer (by decide), wind _⟩,
        List.forall_mem_singleton.mpr ⟨portable_integer (by decide), wind _⟩⟩
  refine portable_map (List.pairwise_pair.mpr ?_) ?_
  · intro k l hk hl
    rw [toScript_string] at hk hl
    cases hk
    cases hl
    decide
  · exact List.forall_mem_cons.mpr
      ⟨⟨text _, portable_of_items rfl (List.forall_mem_singleton.mpr pipes)⟩,
        List.forall_mem_singleton.mpr ⟨text _, portable_of_items rfl (List.forall_mem_nil _)⟩⟩

theorem counted_stops : stops.Counted := by
  have text (s : String) : (Host.Value.string s).Counted := counted_of_no_parts rfl nofun
  have wind (x : Binary64) : (Host.Value.float x).Counted := counted_of_no_parts rfl nofun
  have length (i : Int64) : (Host.Value.integer i).Counted := counted_of_no_parts rfl nofun
  have pipes : flute.Counted :=
    counted_map.mpr (List.forall_mem_cons.mpr ⟨⟨length _, wind _⟩,
      List.forall_mem_singleton.mpr ⟨length _, wind _⟩⟩)
  have some_pipes : (Host.Value.list [flute]).Counted :=
    (counted_of_items rfl).mpr ⟨by decide, List.forall_mem_singleton.mpr pipes⟩
  have no_pipes : (Host.Value.list []).Counted :=
    (counted_of_items rfl).mpr ⟨by decide, List.forall_mem_nil _⟩
  exact counted_map.mpr (List.forall_mem_cons.mpr ⟨⟨text _, some_pipes⟩,
    List.forall_mem_singleton.mpr ⟨text _, no_pipes⟩⟩)

/-- The stops come back. -/
theorem typed_returns_stops :
    Conforms stops (.map .string (.set (.map .integer .float))) ∧ Portable stops ∧
    ∃ v, (Converter.standard []).toScript stops = .ok v ∧
      (Converter.standard []).toHost v (.map .string (.set (.map .integer .float))) =
        some stops := by
  obtain ⟨v, script, back⟩ :=
    typed_returns conforms_stops ⟨trivial, trivial, trivial⟩ portable_stops
  exact ⟨conforms_stops, portable_stops, v, script, back.mpr counted_stops⟩

end Converter.Standard

end HostBridge
