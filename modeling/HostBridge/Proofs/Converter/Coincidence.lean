import HostBridge.Proofs.Converter.NaturalForm
import HostBridge.Proofs.Equality

/-!
# When converted values are equal

A conversion may take two values to one.  Numbers with the same whole part are one integer, a
number and the text it is printed as are one text, and two tables are one list if they are
sequences whose items become the same.

Two values *coincide* at a type if they are told apart by nothing that the conversion keeps.
So what they become is equal exactly if they coincide (`equal_iff_coincide`).  The induction
is on a bound for the size of both values at once.
-/

namespace HostBridge

namespace Script.Value

theorem scalar_or_table (v : Value) : v.table? = none ∨ ∃ t, v = .table t := by
  cases v with
  | table t => exact .inr ⟨t, rfl⟩
  | _ => exact .inl rfl

/-- A table is equal to tables only. -/
theorem equal_table_of_scalar {k : Value} (h : k.table? = none) (t : Table) :
    k.equal (.table t) = false := by
  cases k with
  | table s => cases h
  | _ => rfl

theorem table_equal_of_scalar {k : Value} (h : k.table? = none) (t : Table) :
    (Value.table t).equal k = false := by
  cases k with
  | table s => cases h
  | _ => rfl

end Script.Value

namespace Converter.Standard

open Script (Table)

/-- The items of a sequence are converted to the second type where a value of the first is
asked for. -/
inductive ItemType : Host.Ty → Host.Ty → Prop where
  | array (e : Host.Ty) : ItemType (.array e) e
  | list (e : Host.Ty) : ItemType (.list e) e
  | set (e : Host.Ty) : ItemType (.set e) e
  | any : ItemType .any .any

/-- Nothing that a conversion to the type keeps tells the values apart. -/
inductive Coincide : Host.Ty → Script.Value → Script.Value → Prop where
  | boolean {k l : Script.Value} (h : k.equal l = true) : Coincide .boolean k l
  | integer {x y : Binary64} {i : Int} (hx : x.truncate? = some i) (hy : y.truncate? = some i) :
      Coincide .integer (.number x) (.number y)
  | float {k l : Script.Value} (h : k.equal l = true) : Coincide .float k l
  | string {k l : Script.Value} (h : k.display = l.display) : Coincide .string k l
  /-- Sequences coincide item by item, whatever order they were written in. -/
  | items {ty e : Host.Ty} {s t : Table} {vs ws : List Script.Value} (he : ItemType ty e)
      (hs : Table.sequence? s = some vs) (ht : Table.sequence? t = some ws)
      (length : vs.length = ws.length) (each : ∀ v w, (v, w) ∈ vs.zip ws → Coincide e v w) :
      Coincide ty (.table s) (.table t)
  | entries {key val : Host.Ty} {s t : Table} (length : s.length = t.length)
      (keys : ∀ e d, (e, d) ∈ s.zip t → Coincide key e.1 d.1)
      (values : ∀ e d, (e, d) ∈ s.zip t → Coincide val e.2 d.2) :
      Coincide (.map key val) (.table s) (.table t)
  | scalar {k l : Script.Value} (hk : k.table? = none) (h : k.equal l = true) :
      Coincide .any k l
  | dictionary {s t : Table} (hs : Table.sequence? s = none) (ht : Table.sequence? t = none)
      (length : s.length = t.length) (keys : ∀ e d, (e, d) ∈ s.zip t → Coincide .any e.1 d.1)
      (values : ∀ e d, (e, d) ∈ s.zip t → Coincide .any e.2 d.2) :
      Coincide .any (.table s) (.table t)

variable {s t : Table} {k l : Script.Value} {ty e key val : Host.Ty} {m n : Host.Value} {b : Nat}

/-! ## Two values at one type -/

/-- The entry is converted to types for the key and the value. -/
abbrev ConvertsEntry (key val : Host.Ty) (e : Script.Value × Script.Value)
    (r : Host.Value × Host.Value) : Prop :=
  toHost [] e.1 key = some r.1 ∧ toHost [] e.2 val = some r.2

/-- The ways two values get answers at a type. -/
inductive Both : Script.Value → Script.Value → Host.Ty → Host.Value → Host.Value → Prop where
  | any {k l : Script.Value} {m n : Host.Value} (hm : natural [] k = some m)
      (hn : natural [] l = some n) : Both k l .any m n
  | boolean (p q : Bool) : Both (.boolean p) (.boolean q) .boolean (.boolean p) (.boolean q)
  | integer {x y : Binary64} {i j : Int64} (hi : wholePart? x = some i)
      (hj : wholePart? y = some j) :
      Both (.number x) (.number y) .integer (.integer i) (.integer j)
  | float (x y : Binary64) : Both (.number x) (.number y) .float (.float x) (.float y)
  /-- A text is what it is displayed as. -/
  | text (k l : Script.Value) : Both k l .string (.string k.display) (.string l.display)
  | items {ty e : Host.Ty} {s t : Table} {vs ws : List Script.Value} {rs rs' : List Host.Value}
      {m n : Host.Value} (he : ItemType ty e) (equal : m.equal n = Host.Value.equalItems rs rs')
      (hm : m.items? = some rs) (hn : n.items? = some rs') (hs : Table.sequence? s = some vs)
      (ht : Table.sequence? t = some ws)
      (converted : List.Forall₂ (fun v r => toHost [] v e = some r) vs rs)
      (converted' : List.Forall₂ (fun v r => toHost [] v e = some r) ws rs') :
      Both (.table s) (.table t) ty m n
  | entries {key val : Host.Ty} {s t : Table} {rs rs' : List (Host.Value × Host.Value)}
      (converted : List.Forall₂ (ConvertsEntry key val) s rs)
      (converted' : List.Forall₂ (ConvertsEntry key val) t rs') :
      Both (.table s) (.table t) (.map key val) (.map rs) (.map rs')

theorem both_items (he : ItemType ty e) {rs rs' : List Host.Value}
    (equal : m.equal n = Host.Value.equalItems rs rs') (hm : m.items? = some rs)
    (hn : n.items? = some rs') (h : toHostItems [] s e = some rs)
    (h' : toHostItems [] t e = some rs') : Both (.table s) (.table t) ty m n := by
  obtain ⟨vs, hs, converted⟩ := toHostItems_eq_some_iff.mp h
  obtain ⟨ws, ht, converted'⟩ := toHostItems_eq_some_iff.mp h'
  exact .items he equal hm hn hs ht converted converted'

theorem both_of_toHost (hm : toHost [] k ty = some m) (hn : toHost [] l ty = some n) :
    Both k l ty m n := by
  cases toHost_eq_some_iff.mp hm with
  | any hm =>
      cases toHost_eq_some_iff.mp hn with
      | any hn => exact .any hm hn
  | boolean p =>
      cases toHost_eq_some_iff.mp hn with
      | boolean q => exact .boolean p q
  | integer hi =>
      cases toHost_eq_some_iff.mp hn with
      | integer hj => exact .integer hi hj
  | float x =>
      cases toHost_eq_some_iff.mp hn with
      | float y => exact .float x y
  | string p =>
      cases toHost_eq_some_iff.mp hn with
      | string q => exact .text (.string p) (.string q)
      | text y => exact .text (.string p) (.number y)
  | text x =>
      cases toHost_eq_some_iff.mp hn with
      | string q => exact .text (.number x) (.string q)
      | text y => exact .text (.number x) (.number y)
  | array h =>
      cases toHost_eq_some_iff.mp hn with
      | array h' => exact both_items (.array _) rfl rfl rfl h h'
  | list h =>
      cases toHost_eq_some_iff.mp hn with
      | list h' => exact both_items (.list _) rfl rfl rfl h h'
  | set h =>
      cases toHost_eq_some_iff.mp hn with
      | set h' => exact both_items (.set _) rfl rfl rfl h h'
  | map converted =>
      cases toHost_eq_some_iff.mp hn with
      | map converted' => exact .entries converted converted'

/-! ## Values of one kind -/

theorem coincide_boolean_iff : Coincide .boolean k l ↔ k.equal l = true := by
  constructor
  · intro h
    cases h with
    | boolean h => exact h
    | items he => cases he
  · exact .boolean

theorem coincide_float_iff : Coincide .float k l ↔ k.equal l = true := by
  constructor
  · intro h
    cases h with
    | float h => exact h
    | items he => cases he
  · exact .float

theorem coincide_string_iff : Coincide .string k l ↔ k.display = l.display := by
  constructor
  · intro h
    cases h with
    | string h => exact h
    | items he => cases he
  · exact .string

theorem coincide_scalar_iff (hk : k.table? = none) : Coincide .any k l ↔ k.equal l = true := by
  constructor
  · intro h
    cases h with
    | scalar _ h => exact h
    | _ => cases hk
  · exact .scalar hk

/-! ## Tables that coincide -/

/-- The keys and the values of two entries coincide. -/
def EntriesCoincide (key val : Host.Ty) (e d : Script.Value × Script.Value) : Prop :=
  Coincide key e.1 d.1 ∧ Coincide val e.2 d.2

theorem forall₂_entriesCoincide_iff :
    List.Forall₂ (EntriesCoincide key val) s t ↔
      s.length = t.length ∧ (∀ e d, (e, d) ∈ s.zip t → Coincide key e.1 d.1) ∧
        ∀ e d, (e, d) ∈ s.zip t → Coincide val e.2 d.2 := by
  rw [List.forall₂_iff_zip]
  refine and_congr_right fun _ => ⟨fun h => ?_, fun h {e d} he => ?_⟩
  · exact ⟨fun e d he => (h he).1, fun e d he => (h he).2⟩
  · exact ⟨h.1 e d he, h.2 e d he⟩

theorem coincide_items_iff (he : ItemType ty e) {vs ws : List Script.Value}
    (hs : Table.sequence? s = some vs) (ht : Table.sequence? t = some ws) :
    Coincide ty (.table s) (.table t) ↔ List.Forall₂ (Coincide e) vs ws := by
  rw [List.forall₂_iff_zip]
  constructor
  · intro h
    cases h with
    | items he' hs' ht' length each =>
        cases hs.symm.trans hs'
        cases ht.symm.trans ht'
        cases he <;> cases he' <;> exact ⟨length, fun h => each _ _ h⟩
    | scalar hk => cases hk
    | dictionary hs' => cases hs.symm.trans hs'
    | _ => cases he
  · rintro ⟨length, each⟩
    exact .items he hs ht length fun v w h => each h

theorem coincide_map_iff :
    Coincide (.map key val) (.table s) (.table t) ↔
      List.Forall₂ (EntriesCoincide key val) s t := by
  rw [forall₂_entriesCoincide_iff]
  constructor
  · intro h
    cases h with
    | items he => cases he
    | entries length keys values => exact ⟨length, keys, values⟩
  · rintro ⟨length, keys, values⟩
    exact .entries length keys values

theorem coincide_dictionary_iff (hs : Table.sequence? s = none) (ht : Table.sequence? t = none) :
    Coincide .any (.table s) (.table t) ↔ List.Forall₂ (EntriesCoincide .any .any) s t := by
  rw [forall₂_entriesCoincide_iff]
  constructor
  · intro h
    cases h with
    | items _ hs' => cases hs.symm.trans hs'
    | scalar hk => cases hk
    | dictionary _ _ length keys values => exact ⟨length, keys, values⟩
  · rintro ⟨length, keys, values⟩
    exact .dictionary hs ht length keys values

/-- At no type does a sequence coincide with a dictionary. -/
theorem not_coincide_of_sequence {vs : List Script.Value} (hs : Table.sequence? s = some vs)
    (ht : Table.sequence? t = none) :
    ¬ Coincide .any (.table s) (.table t) ∧ ¬ Coincide .any (.table t) (.table s) := by
  constructor
  · intro h
    cases h with
    | items _ _ ht' => cases ht.symm.trans ht'
    | scalar hk => cases hk
    | dictionary hs' => cases hs.symm.trans hs'
  · intro h
    cases h with
    | items _ ht' => cases ht.symm.trans ht'
    | scalar hk => cases hk
    | dictionary _ hs' => cases hs.symm.trans hs'

/-! ## Equal natural forms -/

theorem equal_of_natural_scalar (hk : k.table? = none) (hm : natural [] k = some m)
    (hn : natural [] l = some n) : m.equal n = k.equal l := by
  cases natural_eq_some_iff.mp hm with
  | list => cases hk
  | map => cases hk
  | _ => cases natural_eq_some_iff.mp hn <;> rfl

theorem equal_of_natural_table (hl : l.table? = none) (hm : natural [] (.table s) = some m)
    (hn : natural [] l = some n) : m.equal n = false := by
  cases natural_eq_some_iff.mp hn with
  | list => cases hl
  | map => cases hl
  | _ => cases naturalTable_of_natural hm <;> rfl

/-! ## Equal conversions -/

/-- What smaller values become is equal exactly if they coincide. -/
def Compared (b : Nat) : Prop :=
  ∀ k l : Script.Value, k.weight < b → l.weight < b → ∀ ty m n,
    toHost [] k ty = some m → toHost [] l ty = some n → (m.equal n = true ↔ Coincide ty k l)

section Step

variable (below : Compared b) (hs : Script.Value.weight (.table s) ≤ b)
  (ht : Script.Value.weight (.table t) ≤ b)

include below hs ht

theorem Compared.items {vs ws : List Script.Value} {rs rs' : List Host.Value}
    (he : ItemType ty e) (sequence : Table.sequence? s = some vs)
    (sequence' : Table.sequence? t = some ws)
    (converted : List.Forall₂ (fun v r => toHost [] v e = some r) vs rs)
    (converted' : List.Forall₂ (fun v r => toHost [] v e = some r) ws rs') :
    Host.Value.equalItems rs rs' = true ↔ Coincide ty (.table s) (.table t) := by
  rw [Host.Value.equalItems_iff, coincide_items_iff he sequence sequence']
  refine forall₂_iff_of_forall₂ converted converted' fun v hv w hw r r' => ?_
  exact below v w (Nat.lt_of_lt_of_le (Table.weight_lt_of_sequence? sequence hv) hs)
    (Nat.lt_of_lt_of_le (Table.weight_lt_of_sequence? sequence' hw) ht) e r r'

theorem Compared.entries {rs rs' : List (Host.Value × Host.Value)}
    (converted : List.Forall₂ (ConvertsEntry key val) s rs)
    (converted' : List.Forall₂ (ConvertsEntry key val) t rs') :
    Host.Value.equalEntries rs rs' = true ↔ List.Forall₂ (EntriesCoincide key val) s t := by
  rw [Host.Value.equalEntries_iff]
  refine forall₂_iff_of_forall₂ converted converted' fun e he d hd r r' hr hr' => ?_
  obtain ⟨ek, ev⟩ := Script.Value.weight_lt_of_mem he
  obtain ⟨dk, dv⟩ := Script.Value.weight_lt_of_mem hd
  exact and_congr
    (below _ _ (Nat.lt_of_lt_of_le ek hs) (Nat.lt_of_lt_of_le dk ht) key _ _ hr.1 hr'.1)
    (below _ _ (Nat.lt_of_lt_of_le ev hs) (Nat.lt_of_lt_of_le dv ht) val _ _ hr.2 hr'.2)

/-- The natural forms of tables are equal exactly if the tables coincide. -/
theorem Compared.tables (hm : natural [] (.table s) = some m)
    (hn : natural [] (.table t) = some n) :
    m.equal n = true ↔ Coincide .any (.table s) (.table t) := by
  cases naturalTable_of_natural hm with
  | sequence sequence converted =>
      simp only [← toHost_any] at converted
      cases naturalTable_of_natural hn with
      | sequence sequence' converted' =>
          simp only [← toHost_any] at converted'
          exact below.items hs ht .any sequence sequence' converted converted'
      | dictionary dictionary =>
          exact iff_of_false nofun (not_coincide_of_sequence sequence dictionary).1
  | dictionary dictionary converted =>
      simp only [← toHost_any] at converted
      cases naturalTable_of_natural hn with
      | sequence sequence =>
          exact iff_of_false nofun (not_coincide_of_sequence sequence dictionary).2
      | dictionary dictionary' converted' =>
          simp only [← toHost_any] at converted'
          rw [coincide_dictionary_iff dictionary dictionary']
          exact below.entries hs ht converted converted'

end Step

theorem Compared.natural (below : Compared b) (hk : k.weight ≤ b) (hl : l.weight ≤ b)
    (hm : natural [] k = some m) (hn : natural [] l = some n) :
    m.equal n = true ↔ Coincide .any k l := by
  rcases k.scalar_or_table with scalar | ⟨s, rfl⟩
  · rw [coincide_scalar_iff scalar, equal_of_natural_scalar scalar hm hn]
  · rcases l.scalar_or_table with scalar | ⟨t, rfl⟩
    · rw [equal_of_natural_table scalar hm hn]
      refine iff_of_false nofun fun h => ?_
      cases h with
      | scalar hk => cases hk
      | _ => cases scalar
    · exact below.tables hk hl hm hn

theorem toInt_of_wholePart? {x : Binary64} {i : Int64} (h : wholePart? x = some i) :
    x.truncate? = some i.toInt := by
  obtain ⟨j, hj, h⟩ := Option.bind_eq_some_iff.mp h
  split at h
  · cases h
    rw [hj, Host.Width.toInt_ofInt ‹_›]
  · cases h

theorem Compared.integers {x y : Binary64} {i j : Int64} (hx : wholePart? x = some i)
    (hy : wholePart? y = some j) :
    (Host.Value.integer i).equal (.integer j) = true ↔
      Coincide .integer (.number x) (.number y) := by
  have part := toInt_of_wholePart? hx
  have part' := toInt_of_wholePart? hy
  show (i == j) = true ↔ _
  rw [beq_iff_eq, ← Int64.toInt_inj]
  constructor
  · intro same
    exact .integer part (same ▸ part')
  · intro h
    cases h with
    | integer hx' hy' =>
        exact Option.some.inj (part.symm.trans (hx'.trans (hy'.symm.trans part')))

/-- One step up: what two values become is compared row by row. -/
theorem Compared.step (below : Compared b) : Compared (b + 1) := by
  intro k l hk hl ty m n hm hn
  have hk := Nat.le_of_lt_succ hk
  have hl := Nat.le_of_lt_succ hl
  cases both_of_toHost hm hn with
  | any hm hn => exact below.natural hk hl hm hn
  | boolean p q =>
      rw [coincide_boolean_iff]
      exact Iff.rfl
  | integer hi hj => exact Compared.integers hi hj
  | float x y =>
      rw [coincide_float_iff]
      exact Iff.rfl
  | text k l =>
      rw [coincide_string_iff]
      exact beq_iff_eq
  | items he equal _ _ sequence sequence' converted converted' =>
      rw [equal]
      exact below.items hk hl he sequence sequence' converted converted'
  | entries converted converted' =>
      rw [coincide_map_iff]
      exact below.entries hk hl converted converted'

theorem compared (b : Nat) : Compared b := by
  induction b with
  | zero => exact fun k _ hk => absurd hk k.weight.not_lt_zero
  | succ b below => exact below.step

/-- What two values become at a type is equal exactly if they coincide there. -/
theorem equal_iff_coincide (hm : toHost [] k ty = some m) (hn : toHost [] l ty = some n) :
    m.equal n = true ↔ Coincide ty k l :=
  compared (max k.weight l.weight + 1) k l (Nat.lt_succ_of_le (Nat.le_max_left _ _))
    (Nat.lt_succ_of_le (Nat.le_max_right _ _)) ty m n hm hn

end Converter.Standard

end HostBridge
