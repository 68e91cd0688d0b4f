import HostBridge.Converter.Standard
import HostBridge.Proofs.Running
import HostBridge.Proofs.Script.Writing

/-!
# The conversion without rules

A converter without rules decides by the type and the value alone.  `Plain` is the table
of its decisions toward the host, one row for each way to get an answer, and `Natural` is
that of natural forms.  Neither has a row for nil, for a class or for a type variable.

`toHost_eq_some_iff` and `natural_eq_some_iff` say that the tables are complete.  What a
conversion gives is found by going through the rows, and the functions behind them, which
recur through one another, are not opened again.

Toward the script there is one equation for each kind of value.
-/

namespace HostBridge.Converter.Standard

variable {α β : Type}

open Script (Table)
open Script.Table (written)

/-! ## Members of a list -/

/-- A question that makes no use of membership is asked down the list. -/
theorem collect_eq_mapM {m : Type → Type} [Monad m] [LawfulMonad m] (xs : List α) (f : α → m β) :
    collect xs (fun x _ => f x) = xs.mapM f := by
  rw [collect, List.mapM_subtype (g := f) fun x _ => rfl, List.unattach_attach]

/-- Convert the key and the value of an entry. -/
def entryBy (f g : Script.Value → Option Host.Value) (e : Script.Value × Script.Value) :
    Option (Host.Value × Host.Value) := do
  let x ← f e.1
  let y ← g e.2
  return (x, y)

theorem entryBy_eq_some_iff {f g : Script.Value → Option Host.Value}
    {e : Script.Value × Script.Value} {r : Host.Value × Host.Value} :
    entryBy f g e = some r ↔ f e.1 = some r.1 ∧ g e.2 = some r.2 := by
  unfold entryBy
  cases f e.1 <;> cases g e.2 <;> simp [Prod.ext_iff]

theorem entryBy_eq_none_iff {f g : Script.Value → Option Host.Value}
    {e : Script.Value × Script.Value} : entryBy f g e = none ↔ f e.1 = none ∨ g e.2 = none := by
  unfold entryBy
  cases f e.1 <;> cases g e.2 <;> simp

theorem collect_entries_eq_mapM (f g : Script.Value → Option Host.Value) (t : Table) :
    (collect t fun e _ => do
      let x ← f e.1
      let y ← g e.2
      return (x, y)) = t.mapM (entryBy f g) :=
  collect_eq_mapM t (entryBy f g)

/-- Entries are processed if every key and every value is. -/
theorem collect_entries_eq_some_iff (f g : Script.Value → Option Host.Value) {t : Table}
    {rs : List (Host.Value × Host.Value)} :
    (collect t fun e _ => do
      let x ← f e.1
      let y ← g e.2
      return (x, y)) = some rs ↔
      List.Forall₂ (fun e r => f e.1 = some r.1 ∧ g e.2 = some r.2) t rs := by
  rw [collect_entries_eq_mapM, mapM_eq_some_iff]
  exact ⟨List.Forall₂.imp fun _ _ => entryBy_eq_some_iff.mp,
    List.Forall₂.imp fun _ _ => entryBy_eq_some_iff.mpr⟩

/-! ## Toward the host -/

/-- Items are converted one by one, whatever the rules are. -/
theorem toHostItems_eq (rules : List Rule) (t : Table) (e : Host.Ty) :
    toHostItems rules t e = (Table.sequence? t).bind fun items => items.mapM (toHost rules · e) := by
  rw [toHostItems]
  split
  · rename_i items h
    rw [h, collect_eq_mapM]
    rfl
  · rename_i h
    rw [h]
    rfl

theorem toHostItems_eq_some_iff {t : Table} {e : Host.Ty} {rs : List Host.Value} :
    toHostItems [] t e = some rs ↔
      ∃ vs, Table.sequence? t = some vs ∧
        List.Forall₂ (fun v r => toHost [] v e = some r) vs rs := by
  rw [toHostItems_eq, Option.bind_eq_some_iff]
  simp only [mapM_eq_some_iff]

/-- The ways to get an answer at a type. -/
inductive Plain : Script.Value → Host.Ty → Host.Value → Prop where
  | any {v : Script.Value} {r : Host.Value} (h : natural [] v = some r) : Plain v .any r
  | boolean (b : Bool) : Plain (.boolean b) .boolean (.boolean b)
  | integer {x : Binary64} {n : Int64} (h : wholePart? x = some n) :
      Plain (.number x) .integer (.integer n)
  | float (x : Binary64) : Plain (.number x) .float (.float x)
  | string (s : String) : Plain (.string s) .string (.string s)
  /-- A number where a text is asked for is printed. -/
  | text (x : Binary64) :
      Plain (.number x) .string (.string (Script.Value.number x).display)
  | array {t : Table} {e : Host.Ty} {rs : List Host.Value} (h : toHostItems [] t e = some rs) :
      Plain (.table t) (.array e) (.array rs)
  | list {t : Table} {e : Host.Ty} {rs : List Host.Value} (h : toHostItems [] t e = some rs) :
      Plain (.table t) (.list e) (.list rs)
  | set {t : Table} {e : Host.Ty} {rs : List Host.Value} (h : toHostItems [] t e = some rs) :
      Plain (.table t) (.set e) (.list rs)
  | map {t : Table} {key val : Host.Ty} {rs : List (Host.Value × Host.Value)}
      (h : List.Forall₂ (fun e r => toHost [] e.1 key = some r.1 ∧ toHost [] e.2 val = some r.2)
        t rs) :
      Plain (.table t) (.map key val) (.map rs)

theorem toHost_eq_some_iff {v : Script.Value} {t : Host.Ty} {r : Host.Value} :
    toHost [] v t = some r ↔ Plain v t r := by
  constructor
  · intro h
    rw [toHost.eq_def] at h
    cases t with
    | any => exact .any h
    | boolean =>
        cases v with
        | boolean b => cases h; exact .boolean b
        | _ => cases h
    | integer =>
        cases v with
        | number x =>
            obtain ⟨n, hn, rfl⟩ := Option.map_eq_some_iff.mp h
            exact .integer hn
        | _ => cases h
    | float =>
        cases v with
        | number x => cases h; exact .float x
        | _ => cases h
    | string =>
        cases v with
        | string s => cases h; exact .string s
        | number x => cases h; exact .text x
        | _ => cases h
    | array e =>
        cases v with
        | table t =>
            obtain ⟨rs, hrs, rfl⟩ := Option.map_eq_some_iff.mp h
            exact .array hrs
        | _ => cases h
    | list e =>
        cases v with
        | table t =>
            obtain ⟨rs, hrs, rfl⟩ := Option.map_eq_some_iff.mp h
            exact .list hrs
        | _ => cases h
    | set e =>
        cases v with
        | table t =>
            obtain ⟨rs, hrs, rfl⟩ := Option.map_eq_some_iff.mp h
            exact .set hrs
        | _ => cases h
    | map key val =>
        cases v with
        | table t =>
            obtain ⟨rs, hrs, rfl⟩ := Option.map_eq_some_iff.mp h
            exact .map ((collect_entries_eq_some_iff (toHost [] · key) (toHost [] · val)).mp hrs)
        | _ => cases h
    | _ => cases v <;> cases h
  · intro h
    rw [toHost.eq_def]
    cases h with
    | any h => exact h
    | integer h => exact Option.map_eq_some_iff.mpr ⟨_, h, rfl⟩
    | array h => exact Option.map_eq_some_iff.mpr ⟨_, h, rfl⟩
    | list h => exact Option.map_eq_some_iff.mpr ⟨_, h, rfl⟩
    | set h => exact Option.map_eq_some_iff.mpr ⟨_, h, rfl⟩
    | @map t key val rs h =>
        exact Option.map_eq_some_iff.mpr
          ⟨rs, (collect_entries_eq_some_iff (toHost [] · key) (toHost [] · val)).mpr h, rfl⟩
    | _ => rfl

theorem toHost_array_iff {t : Table} {e : Host.Ty} {rs : List Host.Value} :
    toHost [] (.table t) (.array e) = some (.array rs) ↔ toHostItems [] t e = some rs := by
  rw [toHost_eq_some_iff]
  constructor
  · rintro ⟨⟩
    assumption
  · exact .array

theorem toHost_list_iff {t : Table} {e : Host.Ty} {rs : List Host.Value} :
    toHost [] (.table t) (.list e) = some (.list rs) ↔ toHostItems [] t e = some rs := by
  rw [toHost_eq_some_iff]
  constructor
  · rintro ⟨⟩
    assumption
  · exact .list

theorem toHost_set_iff {t : Table} {e : Host.Ty} {rs : List Host.Value} :
    toHost [] (.table t) (.set e) = some (.list rs) ↔ toHostItems [] t e = some rs := by
  rw [toHost_eq_some_iff]
  constructor
  · rintro ⟨⟩
    assumption
  · exact .set

theorem toHost_map_iff {t : Table} {key val : Host.Ty} {rs : List (Host.Value × Host.Value)} :
    toHost [] (.table t) (.map key val) = some (.map rs) ↔
      List.Forall₂ (fun e r => toHost [] e.1 key = some r.1 ∧ toHost [] e.2 val = some r.2)
        t rs := by
  rw [toHost_eq_some_iff]
  constructor
  · rintro ⟨⟩
    assumption
  · exact .map

/-- The ways to get a natural form. -/
inductive Natural : Script.Value → Host.Value → Prop where
  | boolean (b : Bool) : Natural (.boolean b) (.boolean b)
  | number (x : Binary64) : Natural (.number x) (.float x)
  | string (s : String) : Natural (.string s) (.string s)
  | list {t : Table} {rs : List Host.Value} (h : toHostItems [] t .any = some rs) :
      Natural (.table t) (.list rs)
  /-- A table that is no list is a map. -/
  | map {t : Table} {rs : List (Host.Value × Host.Value)} (hn : toHostItems [] t .any = none)
      (h : List.Forall₂ (fun e r => natural [] e.1 = some r.1 ∧ natural [] e.2 = some r.2) t rs) :
      Natural (.table t) (.map rs)

theorem natural_eq_some_iff {v : Script.Value} {r : Host.Value} :
    natural [] v = some r ↔ Natural v r := by
  constructor
  · intro h
    rw [natural.eq_def] at h
    cases v with
    | nil => cases h
    | boolean b => cases h; exact .boolean b
    | number x => cases h; exact .number x
    | string s => cases h; exact .string s
    | table t =>
        dsimp only at h
        cases hi : toHostItems [] t .any with
        | some rs =>
            rw [hi] at h
            cases h
            exact .list hi
        | none =>
            rw [hi] at h
            obtain ⟨rs, hrs, rfl⟩ := Option.map_eq_some_iff.mp h
            exact .map hi ((collect_entries_eq_some_iff (natural []) (natural [])).mp hrs)
  · intro h
    rw [natural.eq_def]
    cases h with
    | list h => simp only [h]
    | map hn h =>
        simp only [hn]
        exact Option.map_eq_some_iff.mpr
          ⟨_, (collect_entries_eq_some_iff (natural []) (natural [])).mpr h, rfl⟩
    | _ => rfl

/-! ## Toward the script -/

/-- The kind of the value decides, and parts are converted one by one.  What follows is read off
from this equation, so that the function is opened once. -/
theorem toScript_eq (n : Host.Value) :
    toScript [] n =
      match n with
      | .null => .ok .nil
      | .boolean b => .ok (.boolean b)
      | .integer n => .ok (.ofInt n.toInt)
      | .float x => .ok (.number x)
      | .string s => .ok (.string s)
      | .array items | .list items | .multi items =>
          (items.mapM (toScript [])).map fun vs => .table (Table.ofSequence vs)
      | .map entries =>
          (entries.mapM fun (e : Host.Value × Host.Value) => do
            let k ← toScript [] e.1
            let v ← toScript [] e.2
            return (k, v)).map fun es => .table (written es)
      | .object o => .error (.unrepresentable o.cls.name) := by
  rw [toScript.eq_def]
  cases n <;> first | rfl | (dsimp only; rw [← collect_eq_mapM]; rfl)

@[simp] theorem toScript_null : toScript [] .null = .ok .nil := toScript_eq _

@[simp] theorem toScript_boolean (b : Bool) : toScript [] (.boolean b) = .ok (.boolean b) :=
  toScript_eq _

@[simp] theorem toScript_integer (n : Int64) : toScript [] (.integer n) = .ok (.ofInt n.toInt) :=
  toScript_eq _

@[simp] theorem toScript_float (x : Binary64) : toScript [] (.float x) = .ok (.number x) :=
  toScript_eq _

@[simp] theorem toScript_string (s : String) : toScript [] (.string s) = .ok (.string s) :=
  toScript_eq _

theorem toScript_array (items : List Host.Value) :
    toScript [] (.array items) =
      (items.mapM (toScript [])).map fun vs => .table (Table.ofSequence vs) :=
  toScript_eq _

theorem toScript_list (items : List Host.Value) :
    toScript [] (.list items) =
      (items.mapM (toScript [])).map fun vs => .table (Table.ofSequence vs) :=
  toScript_eq _

theorem toScript_object (o : Host.Object) :
    toScript [] (.object o) = .error (.unrepresentable o.cls.name) :=
  toScript_eq _

/-- Whatever holds a sequence becomes a sequence. -/
theorem toScript_of_items {n : Host.Value} {items : List Host.Value}
    (hn : n.items? = some items) :
    toScript [] n = (items.mapM (toScript [])).map fun vs => .table (Table.ofSequence vs) := by
  cases n with
  | array =>
      cases hn
      exact toScript_array items
  | list =>
      cases hn
      exact toScript_list items
  | multi =>
      cases hn
      exact toScript_eq _
  | _ => cases hn

theorem toScript_map (entries : List (Host.Value × Host.Value)) :
    toScript [] (.map entries) =
      (entries.mapM fun (e : Host.Value × Host.Value) => do
        let k ← toScript [] e.1
        let v ← toScript [] e.2
        return (k, v)).map fun es => .table (written es) :=
  toScript_eq _

/-- A map becomes a table that is written entry by entry. -/
theorem toScript_map_iff {entries : List (Host.Value × Host.Value)} {v : Script.Value} :
    toScript [] (.map entries) = .ok v ↔
      ∃ es, List.Forall₂ (fun r d => toScript [] r.1 = .ok d.1 ∧ toScript [] r.2 = .ok d.2)
        entries es ∧ v = .table (written es) := by
  have step (r : Host.Value × Host.Value) (d : Script.Value × Script.Value) :
      (do
        let k ← toScript [] r.1
        let v ← toScript [] r.2
        return (k, v)) = Except.ok d ↔ toScript [] r.1 = .ok d.1 ∧ toScript [] r.2 = .ok d.2 := by
    cases toScript [] r.1 <;> cases toScript [] r.2 <;>
      simp [bind, Except.bind, pure, Except.pure, Prod.ext_iff]
  rw [toScript_map, map_eq_ok]
  simp only [mapM_eq_ok_iff, step]
  exact exists_congr fun es => and_congr_right fun _ => eq_comm

end HostBridge.Converter.Standard
