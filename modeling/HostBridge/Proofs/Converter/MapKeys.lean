import HostBridge.Proofs.Converter.WayBack

/-!
# The keys of converted maps

A table is converted to a map entry by entry, so the map has as many entries as the table.
Its keys are told apart exactly if no two keys of the table coincide.  Where the conversion
of keys loses something, keys that scripts tell apart may coincide, as numbers do that have
the same whole part.

Toward the script entries with equal keys become one.  So as many entries come back as there
were exactly if the host tells their keys apart.  A key that has maps in it can lose entries
of its own, and is asked not to (`lost_inside`).
-/

namespace HostBridge.Converter.Standard

open Script (Table)
open Script.Table (written written_of_pairwise)

variable {t : Table} {k l : Script.Value} {ty key val : Host.Ty} {n : Host.Value}

/-! ## Keys that are kept -/

/-- The conversion to the type loses nothing of the key. -/
def Keeps : Host.Ty → Script.Value → Prop
  | .boolean, _ => True
  | .integer, .number x => x.isWhole = true
  | .float, _ => True
  | .string, .string _ => True
  | .any, k => k.table? = none
  | _, _ => False

/-- Keys of which nothing is lost coincide only if they are equal. -/
theorem equal_of_coincide (h : Coincide ty k l) (hk : Keeps ty k) (hl : Keeps ty l) :
    k.equal l = true := by
  cases h with
  | boolean h => exact h
  | integer hx hy =>
      exact (Binary.equal_iff_of_toInt?_eq Table.one_lt_topExponent
        (Binary.toInt?_of_truncate? hk hx) (Binary.toInt?_of_truncate? hl hy)).mpr rfl
  | float h => exact h
  | string h =>
      cases k with
      | string p =>
          cases l with
          | string q => exact beq_iff_eq.mpr h
          | _ => exact hl.elim
      | _ => exact hk.elim
  | items he =>
      cases he with
      | any => cases hk
      | _ => exact hk.elim
  | entries => exact hk.elim
  | scalar _ h => exact h
  | dictionary => cases hk

theorem distinct_of_keeps (hk : Keeps ty k) (hn : toHost [] k ty = some n) : n.Distinct := by
  cases toHost_eq_some_iff.mp hn with
  | any hn =>
      cases natural_eq_some_iff.mp hn with
      | list => cases hk
      | map => cases hk
      | _ => exact Host.Value.distinct_of_no_parts rfl nofun
  | array => exact hk.elim
  | list => exact hk.elim
  | set => exact hk.elim
  | map => exact hk.elim
  | _ => exact Host.Value.distinct_of_no_parts rfl nofun

/-! ## Keys of maps -/

/-- What becomes of the keys of a table that is converted to a map. -/
structure KeysConverted (t : Table) (key : Host.Ty) (entries : List (Host.Value × Host.Value)) :
    Prop where
  /-- Two keys of the map are equal exactly if those of the table coincide. -/
  equal_iff : ∀ e r, (e, r) ∈ t.zip entries → ∀ d s, (d, s) ∈ t.zip entries →
    (r.1.equal s.1 = true ↔ Coincide key e.1 d.1)
  /-- So the host tells all keys apart exactly if no two of the table coincide. -/
  apart_iff : Host.Apart entries ↔ t.Pairwise fun e d => ¬ Coincide key e.1 d.1
  /-- It does if scripts do and the conversion loses nothing of the keys. -/
  kept : t.Apart → (∀ e ∈ t, Keeps key e.1) →
    Host.Apart entries ∧ ∀ r ∈ entries, r.1.Distinct
  /-- The map becomes a table again.  It has all entries exactly if the host tells their keys
  apart, as long as no entries are lost inside of a key. -/
  returns : ∃ t', (Converter.standard []).toScript (.map entries) = .ok (.table t') ∧
    t'.length ≤ t.length ∧
    ((∀ r ∈ entries, r.1.Distinct) → (t'.length = t.length ↔ Host.Apart entries))

theorem apart_iff_of_converted {rs : List (Host.Value × Host.Value)}
    (converted : List.Forall₂ (ConvertsEntry key val) t rs) :
    Host.Apart rs ↔ t.Pairwise fun e d => ¬ Coincide key e.1 d.1 := by
  refine (pairwise_iff_of_forall₂ converted ?_).symm
  intro e r d s h h'
  rw [← Bool.not_eq_true, equal_iff_coincide h.1 h'.1]

/-- A map becomes a table, which loses an entry for each key that was there before. -/
theorem exists_returned_table {rs : List (Host.Value × Host.Value)}
    (converted : List.Forall₂ (ConvertsEntry key val) t rs) :
    ∃ t', toScript [] (.map rs) = .ok (.table t') ∧ t'.length ≤ t.length ∧
      ((∀ r ∈ rs, r.1.Distinct) → (t'.length = t.length ↔ Host.Apart rs)) := by
  have typed := conforms_of_toHost (toHost_map_iff.mpr converted)
  obtain ⟨a, ha⟩ := exists_toScript typed
  obtain ⟨es, back, rfl⟩ := toScript_map_iff.mp ha
  have present : ∀ d ∈ es, d.1.isNil = false := by
    intro d hd
    obtain ⟨r, hr, h, -⟩ := exists_mem_of_forall₂ back hd
    obtain ⟨e, -, hk, -⟩ := exists_mem_of_forall₂ converted hr
    exact isNil_of_toScript h (conforms_of_toHost hk).ne_null
  have empty : Table.Apart [] := .nil
  obtain ⟨le, eq_iff⟩ := Table.length_foldl_insert present empty
  rw [List.length_nil, Nat.zero_add, ← back.length_eq, ← converted.length_eq] at le eq_iff
  refine ⟨written es, ha, le, fun distinct => ?_⟩
  have keys : ∀ r ∈ rs, Comes (Script.Value.weight (.table t)) key r.1 := fun r hr =>
    (comes_entry (Nat.le_refl _) converted hr).1 (distinct r hr)
  exact eq_iff.trans ((comparedBack _).apart_iff back keys).symm

/-- The keys of a converted map are equal where those of the table coincide, and nowhere
else.  As many entries come back as the table had exactly if there are no such keys. -/
theorem keys_converted {entries : List (Host.Value × Host.Value)}
    (h : (Converter.standard []).toHost (.table t) (.map key val) = some (.map entries)) :
    KeysConverted t key entries := by
  have converted := toHost_map_iff.mp h
  obtain ⟨-, zipped⟩ := List.forall₂_iff_zip.mp converted
  have apart_iff := apart_iff_of_converted converted
  refine ⟨?_, apart_iff, ?_, exists_returned_table converted⟩
  · intro e r he d s hd
    exact equal_iff_coincide (zipped he).1 (zipped hd).1
  · intro apart keeps
    refine ⟨apart_iff.mpr (apart.imp_of_mem fun he hd ne together => ?_), fun r hr => ?_⟩
    · cases ne.symm.trans (equal_of_coincide together (keeps _ he) (keeps _ hd))
    · obtain ⟨e, he, hk, -⟩ := exists_mem_of_forall₂ converted hr
      exact distinct_of_keeps (keeps e he) hk

/-- A table that is written with two numbers as keys. -/
def intervals (low high : Binary64) : Table :=
  written [(.number low, .string "low"), (.number high, .string "high")]

theorem intervals_eq {x y : Binary64} (apart : x.equal y = false) :
    intervals x y = [(.number x, .string "low"), (.number y, .string "high")] :=
  written_of_pairwise (List.forall_mem_cons.mpr ⟨rfl, List.forall_mem_singleton.mpr rfl⟩)
    (List.pairwise_pair.mpr apart)

theorem toHost_intervals {x y : Binary64} {i j : Int64} (apart : x.equal y = false)
    (hx : wholePart? x = some i) (hy : wholePart? y = some j) :
    (Converter.standard []).toHost (.table (intervals x y)) (.map .integer .string) =
      some (.map [(.integer i, .string "low"), (.integer j, .string "high")]) := by
  have text (s : String) : toHost [] (.string s) .string = some (.string s) :=
    toHost_eq_some_iff.mpr (.string s)
  rw [intervals_eq apart]
  refine toHost_map_iff.mpr (.cons ⟨?_, text "low"⟩ (.cons ⟨?_, text "high"⟩ .nil))
  · exact toHost_eq_some_iff.mpr (.integer hx)
  · exact toHost_eq_some_iff.mpr (.integer hy)

/-- The ratio of a third, one and a quarter. -/
def third : Binary64 := .ofBits 0x3ff4000000000000

/-- The ratio of a fifth, one and a half. -/
def fifth : Binary64 := .ofBits 0x3ff8000000000000

/-- The ratio of a tenth, two and a half. -/
def tenth : Binary64 := .ofBits 0x4004000000000000

/-- A third and a tenth as keys become one and two. -/
theorem keys_converted_intervals :
    (Converter.standard []).toHost (.table (intervals third tenth)) (.map .integer .string) =
      some (.map [(.integer 1, .string "low"), (.integer 2, .string "high")]) ∧
    KeysConverted (intervals third tenth) .integer
      [(.integer 1, .string "low"), (.integer 2, .string "high")] := by
  have converted := toHost_intervals (x := third) (y := tenth) (i := 1) (j := 2)
    (by decide +kernel) (by decide +kernel) (by decide +kernel)
  exact ⟨converted, keys_converted converted⟩

/-- Scripts tell a third and a fifth apart, but both become one. -/
theorem toHost_third_fifth :
    third.equal fifth = false ∧
      (Converter.standard []).toHost (.table (intervals third fifth)) (.map .integer .string) =
        some (.map [(.integer 1, .string "low"), (.integer 1, .string "high")]) := by
  have unequal : third.equal fifth = false := by decide +kernel
  exact ⟨unequal, toHost_intervals unequal (by decide +kernel) (by decide +kernel)⟩

/-- Keys that scripts tell apart may both become one. -/
theorem not_keys_apart :
    ¬ ∀ (es : Table) (key val : Host.Ty) (entries : List (Host.Value × Host.Value)), es.Apart →
      (Converter.standard []).toHost (.table (written es)) (.map key val) = some (.map entries) →
      Host.Apart entries ∧ ∃ t', (Converter.standard []).toScript (.map entries) = .ok (.table t') ∧
        t'.length = (written es).length := by
  intro claim
  obtain ⟨unequal, converted⟩ := toHost_third_fifth
  have written_apart : Table.Apart
      [(.number third, .string "low"), (.number fifth, .string "high")] :=
    List.pairwise_pair.mpr unequal
  obtain ⟨apart, -⟩ := claim _ _ _ _ written_apart converted
  cases List.pairwise_pair.mp apart

theorem written_of_equal (present : k.isNil = false) (same : k.equal k = true)
    (v w : Script.Value) : written [(k, v), (k, w)] = [(k, w)] := by
  show Table.insert (Table.insert [] k v) k w = _
  rw [Table.insert, Table.insert, present, if_neg Bool.false_ne_true, if_neg Bool.false_ne_true,
    Table.write, Table.write, same, if_pos rfl]

/-- A table with the whole number one as its only key. -/
def unison : Table := [(.ofInt 1, .string "high")]

theorem equal_unison : (Script.Value.table unison).equal (.table unison) = true :=
  Script.Value.equal_table_iff.mpr (.cons ⟨Script.Value.equal_ofInt_self 1, rfl⟩ .nil)

/-- Two entries that became one come back as one. -/
theorem toScript_unison :
    toScript [] (.map [(.integer 1, .string "low"), (.integer 1, .string "high")]) =
        .ok (.table unison) ∧
      toScript [] (.map [(.integer 1, .string "high")]) = .ok (.table unison) := by
  have entry (s : String) : toScript [] (.integer 1) = .ok (.ofInt 1) ∧
      toScript [] (.string s) = .ok (.string s) := ⟨toScript_integer 1, toScript_string s⟩
  have one_left := written_of_equal (k := .ofInt 1) rfl (Script.Value.equal_ofInt_self 1)
    (.string "low") (.string "high")
  constructor
  · refine toScript_map_iff.mpr ⟨[(.ofInt 1, .string "low"), (.ofInt 1, .string "high")],
      .cons (entry "low") (.cons (entry "high") .nil), ?_⟩
    rw [one_left, unison]
  · exact toScript_map_iff.mpr ⟨unison, .cons (entry "high") .nil, rfl⟩

/-- Entries lost inside of a key can make keys equal that the host tells apart.  Fewer entries
come back then, though no two keys coincide. -/
theorem lost_inside :
    ∃ (t : Table) (entries : List (Host.Value × Host.Value)),
      (Converter.standard []).toHost (.table t) (.map (.map .integer .string) .boolean) =
        some (.map entries) ∧
      Host.Apart entries ∧
      ∃ t', (Converter.standard []).toScript (.map entries) = .ok (.table t') ∧
        t'.length < t.length := by
  have whole : wholePart? (.ofInt 1) = some 1 := by decide +kernel
  obtain ⟨-, twice⟩ := toHost_third_fifth
  have once : toHost [] (.table unison) (.map .integer .string) =
      some (.map [(.integer 1, .string "high")]) :=
    toHost_map_iff.mpr (.cons ⟨toHost_eq_some_iff.mpr (.integer whole),
      toHost_eq_some_iff.mpr (.string "high")⟩ .nil)
  have truth (b : Bool) : toHost [] (.boolean b) .boolean = some (.boolean b) :=
    toHost_eq_some_iff.mpr (.boolean b)
  have converted : toHost []
      (.table [(.table (intervals third fifth), .boolean true), (.table unison, .boolean false)])
      (.map (.map .integer .string) .boolean) =
      some (.map [
        (.map [(.integer 1, .string "low"), (.integer 1, .string "high")], .boolean true),
        (.map [(.integer 1, .string "high")], .boolean false)]) :=
    toHost_map_iff.mpr (.cons ⟨twice, truth true⟩ (.cons ⟨once, truth false⟩ .nil))
  obtain ⟨twice_back, once_back⟩ := toScript_unison
  have back : toScript [] (.map [
        (.map [(.integer 1, .string "low"), (.integer 1, .string "high")], .boolean true),
        (.map [(.integer 1, .string "high")], .boolean false)]) =
      .ok (.table [(.table unison, .boolean false)]) := by
    refine toScript_map_iff.mpr ⟨[(.table unison, .boolean true), (.table unison, .boolean false)],
      .cons ⟨twice_back, toScript_boolean true⟩ (.cons ⟨once_back, toScript_boolean false⟩ .nil),
      ?_⟩
    rw [written_of_equal rfl equal_unison]
  exact ⟨_, _, converted, List.pairwise_pair.mpr rfl, _, back, Nat.one_lt_two⟩

end HostBridge.Converter.Standard
