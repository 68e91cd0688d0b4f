import HostBridge.Host.Form
import HostBridge.Proofs.Binary.Widening
import HostBridge.Proofs.Host.Occurrence
import HostBridge.Proofs.Running

/-!
# Data of forms there and back

What is read from a value in a form can be written as a value and read again.  The value may
have changed: lists have become arrays, integers that were asked for as numbers are numbers,
and numbers have been rounded to single precision.  The data has not, since all of this
happens once only (`extract_embed_of_extract`).

Data that was not read may be lost when it is written.  An integer that 64 signed bits do not
hold becomes a number.  Something that is present becomes null, if it is an absent part or a
null itself, and is then read as absent.  All other data is read as it was written
(`extract_embed`).  Forms where an option is around an option or a value are ambiguous.
-/

namespace HostBridge.Host

/-- No NaN occurs in the value. -/
def Value.NaNFree (v : Value) : Prop := ∀ x, (Value.float x).Occurs v → x.isNaN = false

namespace Value

/-- A value that holds a sequence has no NaN exactly if no item has. -/
theorem naNFree_of_items {v : Value} {items : List Value} (hv : v.items? = some items) :
    v.NaNFree ↔ ∀ item ∈ items, item.NaNFree := by
  constructor
  · intro h item hi x hx
    exact h x (.item hv hi hx)
  · intro each x hx
    rcases (occurs_of_items hv).mp hx with rfl | ⟨item, hi, hx⟩
    · cases hv
    · exact each item hi x hx

theorem naNFree_of_no_parts {v : Value} (hv : v.items? = none) (hm : ∀ es, v ≠ .map es)
    (h : ∀ x, v = .float x → x.isNaN = false) : v.NaNFree :=
  fun x hx => h x ((occurs_of_no_parts hv hm).mp hx).symm

end Value

namespace Form

variable {f : Form} {v : Value}

/-! ## Reading through options and lists -/

theorem extract_option (f : Form) (h : v ≠ .null) :
    (option f).extract v = (f.extract v).map some := by
  cases v with
  | null => exact absurd rfl h
  | _ => rfl

theorem extract_list {items : List Value} (h : v.items? = some items) :
    (list f).extract v = items.mapM f.extract := by
  cases v with
  | array => cases h; rfl
  | list => cases h; rfl
  | multi => cases h; rfl
  | _ => cases h

/-- A list is read from a value that holds a sequence, item by item. -/
theorem exists_items_of_extract {ys : List f.Data} (h : (list f).extract v = .ok ys) :
    ∃ items, v.items? = some items ∧
      List.Forall₂ (fun item y => f.extract item = .ok y) items ys := by
  cases hv : v.items? with
  | some items => exact ⟨items, rfl, mapM_eq_ok_iff.mp (extract_list hv ▸ h)⟩
  | none =>
      cases v with
      | array => cases hv
      | list => cases hv
      | multi => cases hv
      | _ => cases h

/-- A list is read as it was written if its elements are. -/
theorem extract_embed_list {ys : List f.Data} (h : ∀ y ∈ ys, f.extract (f.embed y) = .ok y) :
    (list f).extract ((list f).embed ys) = .ok ys := by
  show (ys.map f.embed).mapM f.extract = .ok ys
  exact mapM_eq_ok_iff.mpr (List.forall₂_map_left_iff.mpr (List.forall₂_same.mpr h))

/-! ## Integers -/

theorem extract_of_holds {w : Width} {n : Int64} (h : w.Holds n.toInt) :
    (integer w).extract (.integer n) = .ok ⟨n.toInt, h⟩ :=
  dif_pos h

theorem extract_of_not_holds {w : Width} {n : Int64} (h : ¬ w.Holds n.toInt) :
    (integer w).extract (.integer n) = .error (.overflow n w) :=
  dif_neg h

/-- An integer is read from an integer, and from nothing else. -/
theorem extract_integer_eq_ok_iff {w : Width} {i : { i : Int // w.Holds i }} :
    (integer w).extract v = .ok i ↔ ∃ n, v = .integer n ∧ i.val = n.toInt := by
  constructor
  · intro h
    cases v with
    | integer n =>
        by_cases holds : w.Holds n.toInt
        · have same := Except.ok.inj ((extract_of_holds holds).symm.trans h)
          exact ⟨n, rfl, congrArg Subtype.val same.symm⟩
        · exact nomatch (extract_of_not_holds holds).symm.trans h
    | _ => exact nomatch h
  · rintro ⟨n, rfl, same⟩
    obtain ⟨_, holds⟩ := i
    obtain rfl := same
    exact extract_of_holds holds

/-- The integers of every width are at least the least of 64 signed bits. -/
theorem least_le {w : Width} {i : Int} (h : w.Holds i) : Width.int64.least ≤ i := by
  refine Int.le_trans ?_ h.1
  cases w <;> decide

theorem extract_embed_integer {w : Width} {i : { i : Int // w.Holds i }}
    (h : i.val ≤ Width.int64.greatest) : (integer w).extract ((integer w).embed i) = .ok i := by
  have held : Width.int64.Holds i.val := ⟨least_le i.property, h⟩
  refine extract_integer_eq_ok_iff.mpr ⟨.ofInt i.val, if_pos held, ?_⟩
  rw [Width.toInt_ofInt held]

/-! ## Data that was read -/

/-- What is read from a value other than null is not written as null. -/
theorem embed_ne_null_of_extract {x : f.Data} (hv : v ≠ .null) (h : f.extract v = .ok x) :
    f.embed x ≠ .null := by
  induction f with
  | integer w =>
      obtain ⟨n, rfl, same⟩ := extract_integer_eq_ok_iff.mp h
      have held : Width.int64.Holds x.val := same ▸ Width.holds_toInt n
      rw [embed, embedInt, if_pos held]
      exact nofun
  | value =>
      cases h
      exact hv
  | option f ih =>
      rw [extract_option f hv] at h
      obtain ⟨y, hy, rfl⟩ := map_eq_ok.mp h
      exact ih hy
  | _ => exact nofun

/-- What is read from a value is read again from what it is written as. -/
theorem extract_embed_of_extract {x : f.Data} (hv : v.NaNFree) (h : f.extract v = .ok x) :
    f.extract (f.embed x) = .ok x := by
  induction f generalizing v with
  | integer w =>
      obtain ⟨n, rfl, same⟩ := extract_integer_eq_ok_iff.mp h
      exact extract_embed_integer (same ▸ (Width.holds_toInt n).2)
  | single =>
      have number : (x : Binary32).isNaN = false := by
        cases v with
        | float y =>
            cases h
            exact Binary.isNaN_convert (by decide +kernel) (hv y .here)
        | integer n =>
            cases h
            exact Binary.isNaN_ofInt (by decide +kernel) _
        | _ => cases h
      exact congrArg Except.ok
        (Binary.convert_convert Binary.single_within_double (by decide +kernel) number)
  | option f ih =>
      by_cases absent : v = .null
      · subst absent
        cases h
        rfl
      · rw [extract_option f absent] at h
        obtain ⟨y, hy, rfl⟩ := map_eq_ok.mp h
        show (option f).extract (f.embed y) = _
        rw [extract_option f (embed_ne_null_of_extract absent hy), ih hv hy]
        rfl
  | list f ih =>
      obtain ⟨items, hitems, read⟩ := exists_items_of_extract h
      refine extract_embed_list fun y hy => ?_
      obtain ⟨item, hi, h⟩ := exists_mem_of_forall₂ read hy
      exact ih ((Value.naNFree_of_items hitems).mp hv item hi) h
  | _ => rfl

/-! ## Any data -/

/-- Data of the form may be written as null, whatever is inside. -/
def MayBeNull : Form → Prop
  | .option _ => True
  | .value => True
  | _ => False

/-- No option of the form is around a form whose data may be written as null. -/
def Unambiguous : Form → Prop
  | .option f => ¬ f.MayBeNull ∧ f.Unambiguous
  | .list f => f.Unambiguous
  | _ => True

/-- The elements of the data of a list. -/
abbrev elements (ys : (list f).Data) : List f.Data := ys

/-- No NaN is in the data. -/
def NaNFree : (f : Form) → f.Data → Prop
  | .single, x => (x : Binary32).isNaN = false
  | .double, x => (x : Binary64).isNaN = false
  | .value, v => (v : Value).NaNFree
  | .option f, x => ∀ y, x = some y → f.NaNFree y
  | .list f, ys => ∀ y ∈ elements ys, f.NaNFree y
  | _, _ => True

/-- The integers in the data are at most the greatest of 64 signed bits. -/
def Signed : (f : Form) → f.Data → Prop
  | .integer _, i => i.val ≤ Width.int64.greatest
  | .option f, x => ∀ y, x = some y → f.Signed y
  | .list f, ys => ∀ y ∈ elements ys, f.Signed y
  | _, _ => True

theorem embed_ne_null (h : ¬ f.MayBeNull) (x : f.Data) : f.embed x ≠ .null := by
  cases f with
  | integer w =>
      show embedInt x.val ≠ .null
      rw [embedInt]
      split <;> exact nofun
  | value => exact absurd trivial h
  | option f => exact absurd trivial h
  | _ => exact nofun

/-- Data is read as it was written, if the form is not ambiguous and 64 signed bits hold the
integers. -/
theorem extract_embed {x : f.Data} (hf : f.Unambiguous) (number : f.NaNFree x)
    (signed : f.Signed x) : f.extract (f.embed x) = .ok x := by
  induction f with
  | integer w => exact extract_embed_integer signed
  | single =>
      exact congrArg Except.ok
        (Binary.convert_convert Binary.single_within_double (by decide +kernel) number)
  | option f ih =>
      match x with
      | none => rfl
      | some y =>
          show (option f).extract (f.embed y) = _
          rw [extract_option f (embed_ne_null hf.1 y), ih hf.2 (number y rfl) (signed y rfl)]
          rfl
  | list f ih => exact extract_embed_list fun y hy => ih hf (number y hy) (signed y hy)
  | _ => rfl

/-- To read in a form is stable.  What is read from a value without NaNs is written as a
value that reads the same.  Integers of a width are read from the integers in its range,
unchanged, and from nothing else.  In a form that is not ambiguous any data without NaNs and
without integers past 64 signed bits is read as it was written. -/
theorem extraction_stable :
    (∀ (f : Form) (v : Value) (x : f.Data), v.NaNFree → f.extract v = .ok x →
      f.extract (f.embed x) = .ok x) ∧
    (∀ (w : Width) (v : Value),
      ((∃ i, (integer w).extract v = .ok i) ↔ ∃ n, v = .integer n ∧ w.Holds n.toInt) ∧
      ∀ i, (integer w).extract v = .ok i → ∃ n, v = .integer n ∧ i.val = n.toInt) ∧
    ∀ (f : Form) (x : f.Data), f.Unambiguous → f.NaNFree x → f.Signed x →
      f.extract (f.embed x) = .ok x := by
  refine ⟨fun f v x => extract_embed_of_extract, fun w v => ⟨?_, fun i => ?_⟩,
    fun f x => extract_embed⟩
  · constructor
    · rintro ⟨i, h⟩
      obtain ⟨n, rfl, same⟩ := extract_integer_eq_ok_iff.mp h
      exact ⟨n, rfl, same ▸ i.property⟩
    · rintro ⟨n, rfl, holds⟩
      exact ⟨_, extract_of_holds holds⟩
  · exact extract_integer_eq_ok_iff.mp

/-- The volumes of two voices, one of which is not known.  Single precision has no number for
a tenth as double precision has it. -/
def volumes : Value := .multi [.null, .list [.float (.ofBits 0x3fb999999999999a), .integer 3]]

/-- Volumes are read the same once they have been rounded, and what may be an integer is read
as it was written. -/
theorem extraction_stable_volumes :
    let volumeForm : Form := .list (.option (.list .single))
    let countForm : Form := .option (.integer .nat64)
    volumes.NaNFree ∧ countForm.Unambiguous ∧
    (∃ x, volumeForm.extract volumes = .ok x ∧
      volumeForm.embed x =
        .array [.null, .array [.float (.ofBits 0x3fb99999a0000000), .float (.ofInt 3)]] ∧
      volumeForm.extract (volumeForm.embed x) = .ok x) ∧
    countForm.extract (.integer 12) = .ok (some ⟨12, by decide⟩) ∧
    countForm.extract (countForm.embed (some ⟨12, by decide⟩)) = .ok (some ⟨12, by decide⟩) := by
  intro volumeForm countForm
  have number : (Binary.ofBits 0x3fb999999999999a : Binary64).isNaN = false := by decide +kernel
  have free : volumes.NaNFree := by
    have voice : (Value.list [.float (.ofBits 0x3fb999999999999a), .integer 3]).NaNFree := by
      refine (Value.naNFree_of_items rfl).mpr (List.forall_mem_cons.mpr
        ⟨Value.naNFree_of_no_parts rfl nofun ?_, List.forall_mem_singleton.mpr
          (Value.naNFree_of_no_parts rfl nofun nofun)⟩)
      rintro x ⟨⟩
      exact number
    exact (Value.naNFree_of_items rfl).mpr (List.forall_mem_cons.mpr
      ⟨Value.naNFree_of_no_parts rfl nofun nofun, List.forall_mem_singleton.mpr voice⟩)
  have tenth : ((Binary.ofBits 0x3fb999999999999a : Binary64).convert : Binary32).convert =
      (Binary.ofBits 0x3fb99999a0000000 : Binary64) := by decide +kernel
  have three : ((Binary.ofInt (Int64.toInt 3) : Binary32).convert : Binary64) = .ofInt 3 := by
    decide +kernel
  have unambiguous : countForm.Unambiguous := ⟨id, trivial⟩
  have count : countForm.extract (countForm.embed (some ⟨12, by decide⟩)) =
      .ok (some ⟨12, by decide⟩) := by
    refine extraction_stable.2.2 countForm _ unambiguous ?_ ?_
    · rintro y ⟨⟩
      exact trivial
    · rintro y ⟨⟩
      exact (by decide : (12 : Int) ≤ Width.int64.greatest)
  refine ⟨free, unambiguous, ⟨_, rfl, ?_, extraction_stable.1 volumeForm volumes _ free rfl⟩,
    rfl, count⟩
  show Value.array [.null, .array [.float (Binary.convert _), .float (Binary.convert _)]] = _
  rw [tenth, three]

end Form

end HostBridge.Host
