import HostBridge.Proofs.Converter.Coincidence
import HostBridge.Proofs.Converter.TypedRoundTrip

/-!
# Equality there and back

Two host values that one type made of script values become script values again.  These are
equal exactly if the host values are (`comparedBack`), so the way back loses nothing that the
way there has kept.

There is one exception.  Toward the script a map is written entry by entry, and entries with
equal keys become one.  So the host must tell the keys of all maps in the values apart
(`Distinct`).  The induction is on a bound for the size of both script values at once.
-/

namespace HostBridge

/-- The host tells the keys of the entries apart. -/
def Host.Apart (entries : List (Host.Value × Host.Value)) : Prop :=
  entries.Pairwise fun a b => a.1.equal b.1 = false

namespace Host.Value

/-- The host tells the keys of every map apart that occurs in the value. -/
def Distinct (n : Value) : Prop := ∀ entries, Occurs (.map entries) n → Apart entries

theorem Distinct.items {n : Value} {items : List Value} (h : n.Distinct)
    (hn : n.items? = some items) : ∀ r ∈ items, r.Distinct :=
  fun _ hr _ inside => h _ (.item hn hr inside)

theorem Distinct.entries {entries : List (Value × Value)} (h : (map entries).Distinct) :
    ∀ r ∈ entries, r.1.Distinct ∧ r.2.Distinct :=
  fun _ hr => ⟨fun _ inside => h _ (.key hr inside), fun _ inside => h _ (.value hr inside)⟩

theorem distinct_of_no_parts {n : Value} (hn : n.items? = none) (hm : ∀ es, n ≠ .map es) :
    n.Distinct := by
  intro entries inside
  exact absurd ((occurs_of_no_parts hn hm).mp inside).symm (hm entries)

end Host.Value

namespace Converter.Standard

open Script (Table)
open Script.Table (written written_of_pairwise)
open Host (Conforms)

variable {s t : Table} {k l a c : Script.Value} {ty e key val : Host.Ty} {m n : Host.Value}
  {b : Nat}

/-! ## Toward the script -/

/-- The entry becomes one of a script. -/
abbrev ReturnsEntry (r : Host.Value × Host.Value) (d : Script.Value × Script.Value) : Prop :=
  toScript [] r.1 = .ok d.1 ∧ toScript [] r.2 = .ok d.2

theorem exists_of_toScript_items {items : List Host.Value} (hn : n.items? = some items)
    (h : toScript [] n = .ok a) :
    ∃ ws, List.Forall₂ (fun r w => toScript [] r = .ok w) items ws ∧
      a = .table (Table.ofSequence ws) := by
  rw [toScript_of_items hn] at h
  obtain ⟨ws, hws, rfl⟩ := map_eq_ok.mp h
  exact ⟨ws, mapM_eq_ok_iff.mp hws, rfl⟩

theorem exists_toScript_items {items : List Host.Value} (hn : n.items? = some items)
    (h : ∀ r ∈ items, ∃ w, toScript [] r = .ok w) : ∃ a, toScript [] n = .ok a := by
  obtain ⟨ws, hws⟩ := exists_forall₂ h
  rw [toScript_of_items hn, mapM_eq_ok_iff.mpr hws]
  exact ⟨_, rfl⟩

theorem exists_toScript_map {entries : List (Host.Value × Host.Value)}
    (hk : ∀ r ∈ entries, ∃ w, toScript [] r.1 = .ok w)
    (hv : ∀ r ∈ entries, ∃ w, toScript [] r.2 = .ok w) :
    ∃ a, toScript [] (.map entries) = .ok a := by
  have each : ∀ r ∈ entries, ∃ d : Script.Value × Script.Value,
      toScript [] r.1 = .ok d.1 ∧ toScript [] r.2 = .ok d.2 := by
    intro r hr
    obtain ⟨k, hk⟩ := hk r hr
    obtain ⟨v, hv⟩ := hv r hr
    exact ⟨(k, v), hk, hv⟩
  obtain ⟨es, hes⟩ := exists_forall₂ each
  exact ⟨_, toScript_map_iff.mpr ⟨es, hes, rfl⟩⟩

/-- What is of a type becomes a script value. -/
theorem exists_toScript (h : Conforms n ty) : ∃ a, toScript [] n = .ok a := by
  induction h with
  | boolean b => exact ⟨_, toScript_boolean b⟩
  | integer i => exact ⟨_, toScript_integer i⟩
  | float x => exact ⟨_, toScript_float x⟩
  | string s => exact ⟨_, toScript_string s⟩
  | array _ ih => exact exists_toScript_items rfl ih
  | list _ ih => exact exists_toScript_items rfl ih
  | set _ ih => exact exists_toScript_items rfl ih
  | map _ _ ihk ihv => exact exists_toScript_map ihk ihv
  | anyBoolean b => exact ⟨_, toScript_boolean b⟩
  | anyFloat x => exact ⟨_, toScript_float x⟩
  | anyString s => exact ⟨_, toScript_string s⟩
  | anyList _ ih => exact exists_toScript_items rfl ih
  | anyMap _ _ ihk ihv => exact exists_toScript_map ihk ihv

/-! ## Natural forms and back -/

theorem toScript_of_natural_scalar (hk : k.table? = none) (hm : natural [] k = some m)
    (ha : toScript [] m = .ok a) : a = k := by
  have present : k ≠ .nil := by
    rintro rfl
    cases natural_nil.symm.trans hm
  obtain ⟨r, hr, back⟩ := survives_scalar hk present
  cases hm.symm.trans hr
  exact Except.ok.inj (ha.symm.trans back)

theorem exists_table_of_natural (hm : natural [] (.table s) = some m)
    (ha : toScript [] m = .ok a) : ∃ es, a = .table es := by
  cases naturalTable_of_natural hm with
  | sequence =>
      obtain ⟨ws, -, rfl⟩ := exists_of_toScript_items rfl ha
      exact ⟨_, rfl⟩
  | dictionary =>
      obtain ⟨es, -, rfl⟩ := toScript_map_iff.mp ha
      exact ⟨_, rfl⟩

/-- A key that becomes one of a place was one. -/
theorem slot?_of_natural {i j : Nat} (hm : natural [] k = some m) (ha : toScript [] m = .ok a)
    (h : Table.slot? i a = some j) : Table.slot? i k = some j := by
  rcases k.scalar_or_table with scalar | ⟨s, rfl⟩
  · rwa [← toScript_of_natural_scalar scalar hm ha]
  · obtain ⟨es, rfl⟩ := exists_table_of_natural hm ha
    cases h

/-- The keys of a dictionary do not become those of a sequence. -/
theorem not_equal_keys {vs : List Script.Value} {rs : List (Host.Value × Host.Value)} {es : Table}
    (hs : Table.sequence? s = some vs) (ht : Table.sequence? t = none)
    (converted : List.Forall₂ (fun e r => natural [] e.1 = some r.1 ∧ natural [] e.2 = some r.2)
      t rs)
    (back : List.Forall₂ ReturnsEntry rs es) :
    ¬ List.Forall₂ (fun a d => a.1.equal d.1 = true ∨ d.1.equal a.1 = true) s es := by
  intro same
  obtain ⟨js, sequence⟩ := Table.isSequence_of_sequence? hs
  obtain ⟨slots, perm⟩ := sequence.slots_of_equal same
  have length : es.length = t.length := back.length_eq.symm.trans converted.length_eq.symm
  rw [length] at slots perm
  have keys := forall₂_trans converted back
    (T := fun e d => ∀ i j, Table.slot? i d.1 = some j → Table.slot? i e.1 = some j)
    fun h h' i j => slot?_of_natural h.1 h'.1
  obtain ⟨ws, hws⟩ := Table.exists_sequence? perm (forall₂_trans keys slots fun h => h _ _)
  cases ht.symm.trans hws

/-! ## Equality there and back -/

/-- The host value comes from a script value of limited size, and its maps have keys that are
told apart. -/
def Comes (b : Nat) (ty : Host.Ty) (n : Host.Value) : Prop :=
  (∃ k : Script.Value, k.weight < b ∧ toHost [] k ty = some n) ∧ n.Distinct

theorem Comes.isNil_eq_false (h : Comes b ty n) (ha : toScript [] n = .ok a) :
    a.isNil = false := by
  obtain ⟨⟨k, -, hn⟩, -⟩ := h
  exact isNil_of_toScript ha (conforms_of_toHost hn).ne_null

/-- Script values that such values of one type become are equal exactly if these are. -/
def ComparedBack (b : Nat) : Prop :=
  ∀ ty m n, Comes b ty m → Comes b ty n → ∀ a c,
    toScript [] m = .ok a → toScript [] n = .ok c → (a.equal c = true ↔ m.equal n = true)

theorem comes_items {vs : List Script.Value} {rs : List Host.Value}
    (small : Script.Value.weight (.table s) ≤ b) (hs : Table.sequence? s = some vs)
    (converted : List.Forall₂ (fun v r => toHost [] v e = some r) vs rs)
    (distinct : ∀ r ∈ rs, r.Distinct) : ∀ r ∈ rs, Comes b e r := by
  intro r hr
  obtain ⟨v, hv, h⟩ := exists_mem_of_forall₂ converted hr
  exact ⟨⟨v, Nat.lt_of_lt_of_le (Table.weight_lt_of_sequence? hs hv) small, h⟩, distinct r hr⟩

theorem comes_entry {rs : List (Host.Value × Host.Value)}
    (small : Script.Value.weight (.table s) ≤ b)
    (converted : List.Forall₂ (ConvertsEntry key val) s rs) {r : Host.Value × Host.Value}
    (hr : r ∈ rs) :
    (r.1.Distinct → Comes b key r.1) ∧ (r.2.Distinct → Comes b val r.2) := by
  obtain ⟨e, he, hk, hv⟩ := exists_mem_of_forall₂ converted hr
  obtain ⟨lk, lv⟩ := Script.Value.weight_lt_of_mem he
  exact ⟨fun distinct => ⟨⟨e.1, Nat.lt_of_lt_of_le lk small, hk⟩, distinct⟩,
    fun distinct => ⟨⟨e.2, Nat.lt_of_lt_of_le lv small, hv⟩, distinct⟩⟩

/-- What the entries of a map come from, whose keys are told apart at all depths. -/
theorem comes_entries {rs : List (Host.Value × Host.Value)}
    (small : Script.Value.weight (.table s) ≤ b)
    (converted : List.Forall₂ (ConvertsEntry key val) s rs)
    (distinct : (Host.Value.map rs).Distinct) : ∀ r ∈ rs, Comes b key r.1 ∧ Comes b val r.2 := by
  intro r hr
  obtain ⟨hk, hv⟩ := comes_entry small converted hr
  obtain ⟨dk, dv⟩ := distinct.entries r hr
  exact ⟨hk dk, hv dv⟩

theorem ComparedBack.items (below : ComparedBack b) {rs rs' : List Host.Value}
    {ws ws' : List Script.Value} (hr : ∀ r ∈ rs, Comes b e r) (hr' : ∀ r ∈ rs', Comes b e r)
    (back : List.Forall₂ (fun r w => toScript [] r = .ok w) rs ws)
    (back' : List.Forall₂ (fun r w => toScript [] r = .ok w) rs' ws') :
    (Script.Value.table (Table.ofSequence ws)).equal (.table (Table.ofSequence ws')) = true ↔
      Host.Value.equalItems rs rs' = true := by
  rw [Script.Value.equal_ofSequence_iff, Host.Value.equalItems_iff]
  exact forall₂_iff_of_forall₂ back back' fun r h r' h' w w' =>
    below e r r' (hr r h) (hr' r' h') w w'

section Entries

variable (below : ComparedBack b) {rs rs' : List (Host.Value × Host.Value)} {es es' : Table}
  (back : List.Forall₂ ReturnsEntry rs es) (back' : List.Forall₂ ReturnsEntry rs' es')

include below back

/-- Scripts tell the keys apart exactly if the host does. -/
theorem ComparedBack.apart_iff (keys : ∀ r ∈ rs, Comes b key r.1) : Host.Apart rs ↔ es.Apart := by
  refine pairwise_iff_of_forall₂ ((List.forall₂_and_left rs es).mpr ⟨keys, back⟩) ?_
  intro r d r' d' h h'
  rw [← Bool.not_eq_true, ← Bool.not_eq_true, below key r.1 r'.1 h.1 h'.1 _ _ h.2.1 h'.2.1]

/-- As the host tells the keys apart, the entries are written as they are. -/
theorem ComparedBack.written_eq (small : Script.Value.weight (.table s) ≤ b)
    (converted : List.Forall₂ (ConvertsEntry key val) s rs)
    (distinct : (Host.Value.map rs).Distinct) : written es = es := by
  have keys : ∀ r ∈ rs, Comes b key r.1 := fun r hr =>
    (comes_entries small converted distinct r hr).1
  refine written_of_pairwise ?_ ((below.apart_iff back keys).mp (distinct rs .here))
  intro d hd
  obtain ⟨r, hr, h, -⟩ := exists_mem_of_forall₂ back hd
  exact (keys r hr).isNil_eq_false h

include back'

theorem ComparedBack.entries (hr : ∀ r ∈ rs, Comes b key r.1 ∧ Comes b val r.2)
    (hr' : ∀ r ∈ rs', Comes b key r.1 ∧ Comes b val r.2) :
    (Script.Value.table es).equal (.table es') = true ↔ Host.Value.equalEntries rs rs' = true := by
  rw [Script.Value.equal_table_iff, Host.Value.equalEntries_iff]
  refine forall₂_iff_of_forall₂ back back' fun r h r' h' d d' hd hd' => ?_
  exact and_congr (below key _ _ (hr r h).1 (hr' r' h').1 _ _ hd.1 hd'.1)
    (below val _ _ (hr r h).2 (hr' r' h').2 _ _ hd.2 hd'.2)

end Entries

section Step

variable (below : ComparedBack b) (hs : Script.Value.weight (.table s) ≤ b)
  (ht : Script.Value.weight (.table t) ≤ b) (dm : m.Distinct) (dn : n.Distinct)
  (ha : toScript [] m = .ok a) (hc : toScript [] n = .ok c)

include below hs ht dm dn ha hc

theorem ComparedBack.sequences {vs ws : List Script.Value} {rs rs' : List Host.Value}
    (hm : m.items? = some rs) (hn : n.items? = some rs')
    (sequence : Table.sequence? s = some vs) (sequence' : Table.sequence? t = some ws)
    (converted : List.Forall₂ (fun v r => toHost [] v e = some r) vs rs)
    (converted' : List.Forall₂ (fun v r => toHost [] v e = some r) ws rs') :
    a.equal c = true ↔ Host.Value.equalItems rs rs' = true := by
  obtain ⟨as, back, rfl⟩ := exists_of_toScript_items hm ha
  obtain ⟨cs, back', rfl⟩ := exists_of_toScript_items hn hc
  exact below.items (comes_items hs sequence converted (dm.items hm))
    (comes_items ht sequence' converted' (dn.items hn)) back back'

theorem ComparedBack.maps {rs rs' : List (Host.Value × Host.Value)} (hm : m = .map rs)
    (hn : n = .map rs')
    (converted : List.Forall₂ (ConvertsEntry key val) s rs)
    (converted' : List.Forall₂ (ConvertsEntry key val) t rs') :
    a.equal c = true ↔ Host.Value.equalEntries rs rs' = true := by
  subst hm hn
  obtain ⟨es, back, rfl⟩ := toScript_map_iff.mp ha
  obtain ⟨es', back', rfl⟩ := toScript_map_iff.mp hc
  rw [below.written_eq back hs converted dm, below.written_eq back' ht converted' dn]
  exact below.entries back back' (comes_entries hs converted dm) (comes_entries ht converted' dn)

end Step

theorem ComparedBack.dictionary (below : ComparedBack b) {vs ws : List Script.Value}
    {rs : List (Host.Value × Host.Value)} {es : Table}
    (ht : Script.Value.weight (.table t) ≤ b) (distinct : (Host.Value.map rs).Distinct)
    (sequence : Table.sequence? s = some vs) (length : vs.length = ws.length)
    (dictionary : Table.sequence? t = none)
    (converted : List.Forall₂
      (fun e r => natural [] e.1 = some r.1 ∧ natural [] e.2 = some r.2) t rs)
    (back : List.Forall₂ ReturnsEntry rs es) :
    (Script.Value.table (Table.ofSequence ws)).equal (.table (written es)) ≠ true ∧
      (Script.Value.table (written es)).equal (.table (Table.ofSequence ws)) ≠ true := by
  have converted' := converted
  simp only [← toHost_any] at converted'
  rw [below.written_eq back ht converted' distinct]
  have apart := not_equal_keys (Table.sequence?_ofSequence_of_length sequence length) dictionary
    converted back
  constructor
  · intro same
    exact apart ((Script.Value.equal_table_iff.mp same).imp fun _ _ h => .inl h.1)
  · intro same
    exact apart ((Script.Value.equal_table_iff.mp same).flip.imp fun _ _ h => .inr h.1)

theorem ComparedBack.tables (below : ComparedBack b) (hs : Script.Value.weight (.table s) ≤ b)
    (ht : Script.Value.weight (.table t) ≤ b) (hm : natural [] (.table s) = some m)
    (hn : natural [] (.table t) = some n) (dm : m.Distinct) (dn : n.Distinct)
    (ha : toScript [] m = .ok a) (hc : toScript [] n = .ok c) :
    a.equal c = true ↔ m.equal n = true := by
  cases naturalTable_of_natural hm with
  | sequence sequence converted =>
      cases naturalTable_of_natural hn with
      | sequence sequence' converted' =>
          simp only [← toHost_any] at converted converted'
          exact below.sequences hs ht dm dn ha hc rfl rfl sequence sequence' converted converted'
      | dictionary dictionary converted' =>
          obtain ⟨as, back, rfl⟩ := exists_of_toScript_items rfl ha
          obtain ⟨es, back', rfl⟩ := toScript_map_iff.mp hc
          have length := converted.length_eq.trans back.length_eq
          have unequal := below.dictionary ht dn sequence length dictionary converted' back'
          exact iff_of_false unequal.1 nofun
  | dictionary dictionary converted =>
      cases naturalTable_of_natural hn with
      | sequence sequence converted' =>
          obtain ⟨es, back, rfl⟩ := toScript_map_iff.mp ha
          obtain ⟨cs, back', rfl⟩ := exists_of_toScript_items rfl hc
          have length := converted'.length_eq.trans back'.length_eq
          have unequal := below.dictionary hs dm sequence length dictionary converted back
          exact iff_of_false unequal.2 nofun
      | dictionary dictionary' converted' =>
          simp only [← toHost_any] at converted converted'
          exact below.maps hs ht dm dn ha hc rfl rfl converted converted'

theorem ComparedBack.natural (below : ComparedBack b) (hk : k.weight ≤ b) (hl : l.weight ≤ b)
    (hm : natural [] k = some m) (hn : natural [] l = some n) (dm : m.Distinct)
    (dn : n.Distinct) (ha : toScript [] m = .ok a) (hc : toScript [] n = .ok c) :
    a.equal c = true ↔ m.equal n = true := by
  rcases k.scalar_or_table with scalar | ⟨s, rfl⟩
  · rw [equal_of_natural_scalar scalar hm hn, toScript_of_natural_scalar scalar hm ha]
    rcases l.scalar_or_table with scalar' | ⟨t, rfl⟩
    · rw [toScript_of_natural_scalar scalar' hn hc]
    · obtain ⟨es, rfl⟩ := exists_table_of_natural hn hc
      rw [Script.Value.equal_table_of_scalar scalar, Script.Value.equal_table_of_scalar scalar]
  · rcases l.scalar_or_table with scalar' | ⟨t, rfl⟩
    · obtain ⟨es, rfl⟩ := exists_table_of_natural hm ha
      rw [equal_of_natural_table scalar' hm hn, toScript_of_natural_scalar scalar' hn hc,
        Script.Value.table_equal_of_scalar scalar']
    · exact below.tables hk hl hm hn dm dn ha hc

theorem equal_ofInt_iff {x y : Binary64} {i j : Int64} (hx : wholePart? x = some i)
    (hy : wholePart? y = some j) :
    (Script.Value.ofInt i.toInt).equal (.ofInt j.toInt) = true ↔ i = j := by
  have wide : Binary.Format.double.unitPlaces + 2 < Binary.Format.double.topExponent := by
    decide +kernel
  rw [← Int64.toInt_inj]
  exact Binary.equal_iff_of_toInt?_eq Table.one_lt_topExponent
    (Binary.toInt?_ofInt_of_truncate? wide (toInt_of_wholePart? hx))
    (Binary.toInt?_ofInt_of_truncate? wide (toInt_of_wholePart? hy))

/-- One step up: what comes back is compared row by row. -/
theorem ComparedBack.step (below : ComparedBack b) : ComparedBack (b + 1) := by
  rintro ty m n ⟨⟨k, hk, hm⟩, dm⟩ ⟨⟨l, hl, hn⟩, dn⟩ a c ha hc
  have hk := Nat.le_of_lt_succ hk
  have hl := Nat.le_of_lt_succ hl
  cases both_of_toHost hm hn with
  | any hm hn => exact below.natural hk hl hm hn dm dn ha hc
  | boolean p q =>
      cases (toScript_boolean p).symm.trans ha
      cases (toScript_boolean q).symm.trans hc
      exact Iff.rfl
  | integer hi hj =>
      cases (toScript_integer _).symm.trans ha
      cases (toScript_integer _).symm.trans hc
      exact (equal_ofInt_iff hi hj).trans beq_iff_eq.symm
  | float x y =>
      cases (toScript_float x).symm.trans ha
      cases (toScript_float y).symm.trans hc
      exact Iff.rfl
  | text k l =>
      cases (toScript_string _).symm.trans ha
      cases (toScript_string _).symm.trans hc
      exact Iff.rfl
  | items _ equal hm hn sequence sequence' converted converted' =>
      rw [equal]
      exact below.sequences hk hl dm dn ha hc hm hn sequence sequence' converted converted'
  | entries converted converted' =>
      exact below.maps hk hl dm dn ha hc rfl rfl converted converted'

theorem comparedBack (b : Nat) : ComparedBack b := by
  induction b with
  | zero => exact fun _ _ _ h => absurd h.1.choose_spec.1 (Nat.not_lt_zero _)
  | succ b below => exact below.step

end Converter.Standard

end HostBridge
