import HostBridge.Proofs.Converter.Soundness
import HostBridge.Proofs.Method.Alignment
import HostBridge.Proofs.Script.Sequence

/-!
# The values of script arguments

`Argument.Holds` says which host values an argument may have.  They are of its type,
except that an optional argument may be null, and so may the elements of a nullable
variadic one.

A host function asks for an argument in a form.  `Argument.form?` is the form that
belongs to the type and presence of the argument, if there is one: maps, objects and
values of any type have none.  Whatever the argument holds can be read in the form, and
nothing is lost but the difference between lists and arrays, which forms do not know.
-/

namespace HostBridge

namespace Host

/-! ## Forms for types -/

/-- The form in which host functions ask for values of a type. -/
def Ty.form? : Ty → Option Form
  | .boolean => some .boolean
  | .integer => some (.integer .int64)
  | .float => some .double
  | .string => some .string
  | .array e => e.form?.map .list
  | .list e => e.form?.map .list
  | .set e => e.form?.map .list
  | _ => none

namespace Value

mutual

/-- The value with arrays in the places of lists. -/
def arrayed : Value → Value
  | .array items => .array (arrayedItems items)
  | .list items => .array (arrayedItems items)
  | v => v
termination_by structural v => v

/-- The items with arrays in the places of lists. -/
def arrayedItems : List Value → List Value
  | [] => []
  | v :: rest => v.arrayed :: arrayedItems rest
termination_by structural vs => vs

end

end Value

namespace Form

/-- To read the value in the form gives data that stands for the value. -/
def Reads (f : Form) (v : Value) : Prop := ∃ x, f.extract v = .ok x ∧ f.embed x = v.arrayed

theorem exists_mapM_extract {f : Form} {items : List Value} (h : ∀ v ∈ items, f.Reads v) :
    ∃ xs, items.mapM f.extract = .ok xs ∧ xs.map f.embed = Value.arrayedItems items := by
  induction items with
  | nil => exact ⟨[], rfl, rfl⟩
  | cons v rest ih =>
      obtain ⟨x, hx, hv⟩ := h v (List.mem_cons_self ..)
      obtain ⟨xs, hxs, hrest⟩ := ih fun w hw => h w (List.mem_cons_of_mem _ hw)
      refine ⟨x :: xs, ?_, ?_⟩
      · rw [List.mapM_cons, hx, hxs]
        rfl
      · rw [List.map_cons, hv, hrest, Value.arrayedItems]

theorem reads_items {f : Form} {items : List Value} {v : Value}
    (hv : v = .array items ∨ v = .list items) (h : ∀ item ∈ items, f.Reads item) :
    (list f).Reads v := by
  obtain ⟨xs, hxs, he⟩ := exists_mapM_extract h
  rcases hv with rfl | rfl
  · exact ⟨xs, hxs, congrArg Value.array he⟩
  · exact ⟨xs, hxs, congrArg Value.array he⟩

theorem reads_integer (n : Int64) : (integer .int64).Reads (.integer n) := by
  have holds := Width.holds_toInt n
  refine ⟨⟨n.toInt, holds⟩, dif_pos holds, ?_⟩
  show embedInt n.toInt = _
  rw [embedInt, if_pos holds, Int64.ofInt_toInt]
  rfl

/-- Values of a type can be read in its form. -/
theorem reads_of_conforms {v : Value} {t : Ty} (h : Conforms v t) {f : Form}
    (hf : t.form? = some f) : f.Reads v := by
  induction h generalizing f with
  | boolean b =>
      cases hf
      exact ⟨b, rfl, rfl⟩
  | integer n =>
      cases hf
      exact reads_integer n
  | float x =>
      cases hf
      exact ⟨x, rfl, rfl⟩
  | string s =>
      cases hf
      exact ⟨s, rfl, rfl⟩
  | array _ ih =>
      obtain ⟨g, hg, rfl⟩ := Option.map_eq_some_iff.mp hf
      exact reads_items (.inl rfl) fun v hv => ih v hv hg
  | list _ ih =>
      obtain ⟨g, hg, rfl⟩ := Option.map_eq_some_iff.mp hf
      exact reads_items (.inr rfl) fun v hv => ih v hv hg
  | set _ ih =>
      obtain ⟨g, hg, rfl⟩ := Option.map_eq_some_iff.mp hf
      exact reads_items (.inr rfl) fun v hv => ih v hv hg
  | _ => cases hf

theorem reads_null (f : Form) : (option f).Reads .null := ⟨none, rfl, rfl⟩

theorem Reads.option {f : Form} {v : Value} (h : f.Reads v) (hv : v ≠ .null) :
    (option f).Reads v := by
  obtain ⟨x, hx, he⟩ := h
  refine ⟨some x, ?_, he⟩
  have present : (Form.option f).extract v = (f.extract v).map some := by
    cases v with
    | null => exact absurd rfl hv
    | _ => rfl
  rw [present, hx]
  rfl

end Form

end Host

/-! ## What an argument holds -/

namespace Argument

open Host (Conforms)

/-- The value is one the argument may have. -/
def Holds (a : Argument) (v : Host.Value) : Prop :=
  match a.presence with
  | .required => Conforms v a.ty
  | .optional => Conforms v a.ty ∨ v = .null
  | .variadic nullable => ∃ e items, a.ty = .array e ∧ v = .array items ∧
      ∀ item ∈ items, Conforms item e ∨ nullable = true ∧ item = .null

/-- The form in which host functions ask for the argument. -/
def form? (a : Argument) : Option Host.Form :=
  match a.presence with
  | .required => a.ty.form?
  | .optional => a.ty.form?.map .option
  | .variadic nullable => a.elementType.form?.map fun f => .list (if nullable then .option f else f)

/-- What an argument holds can be read in its form. -/
theorem Holds.reads {a : Argument} {v : Host.Value} (h : a.Holds v) {f : Host.Form}
    (hf : a.form? = some f) : f.Reads v := by
  unfold Holds at h
  unfold form? at hf
  cases hp : a.presence with
  | required =>
      rw [hp] at h hf
      exact Host.Form.reads_of_conforms h hf
  | optional =>
      rw [hp] at h hf
      obtain ⟨g, hg, rfl⟩ := Option.map_eq_some_iff.mp hf
      rcases h with h | rfl
      · exact (Host.Form.reads_of_conforms h hg).option h.ne_null
      · exact Host.Form.reads_null g
  | variadic nullable =>
      rw [hp] at h hf
      obtain ⟨g, hg, rfl⟩ := Option.map_eq_some_iff.mp hf
      obtain ⟨e, items, he, rfl, fit⟩ := h
      rw [elementType, he] at hg
      apply Host.Form.reads_items (.inl rfl)
      intro item hi
      rcases fit item hi with hc | ⟨rfl, rfl⟩
      · have reads := Host.Form.reads_of_conforms hc hg
        cases nullable with
        | true => exact reads.option hc.ne_null
        | false => exact reads
      · exact Host.Form.reads_null g

/-! ## Reading -/

section Reading

variable {a : Argument}

theorem conforms_of_convert {t : Host.Ty} {value : Script.Value} {v : Host.Value}
    (h : a.convert (.standard []) t value = .ok v) : Conforms v t := by
  rw [convert] at h
  cases hc : (Converter.standard []).toHost value t with
  | none =>
      rw [hc] at h
      cases h
  | some w =>
      rw [hc] at h
      cases h
      exact Converter.Standard.conforms_of_toHost hc

/-- Reading all values is processing all values. -/
theorem fst_readAll (one : Script.Value → Except ArgumentError Host.Value)
    (values : List Script.Value) : (readAll one values).1 = values.mapM one := by
  induction values with
  | nil => rfl
  | cons v rest ih =>
      rw [readAll, List.mapM_cons]
      cases one v with
      | error e => rfl
      | ok converted =>
          show (readAll one rest).1.map _ = _
          rw [ih]
          cases rest.mapM one <;> rfl

theorem exists_one_of_readAll {one : Script.Value → Except ArgumentError Host.Value}
    {values : List Script.Value} {items : List Host.Value}
    (h : (readAll one values).1 = .ok items) : ∀ item ∈ items, ∃ v, one v = .ok item := by
  rw [fst_readAll, mapM_eq_ok_iff] at h
  intro item hi
  obtain ⟨v, -, hv⟩ := exists_mem_of_forall₂ h hi
  exact ⟨v, hv⟩

theorem conforms_of_convertElement {nullable : Bool} {value : Script.Value} {v : Host.Value}
    (h : a.convertElement (.standard []) nullable value = .ok v) :
    Conforms v a.elementType ∨ nullable = true ∧ v = .null := by
  cases value with
  | nil =>
      cases nullable with
      | true =>
          cases h
          exact .inr ⟨rfl, rfl⟩
      | false => cases h
  | _ => exact .inl (conforms_of_convert h)

/-- An argument holds what is read for it. -/
theorem holds_of_read (ha : a.isVariadic = true → a.ty.isArray = true)
    {values : List Script.Value} {v : Host.Value}
    (h : (a.read (.standard []) values).1 = .ok v) : a.Holds v := by
  unfold read at h
  unfold Holds
  cases hp : a.presence with
  | required =>
      rw [hp] at h
      cases values with
      | nil => cases h
      | cons value rest =>
          cases value with
          | nil => cases h
          | _ => exact conforms_of_convert h
  | optional =>
      rw [hp] at h
      cases values with
      | nil =>
          cases h
          exact .inr rfl
      | cons value rest =>
          cases value with
          | nil =>
              cases h
              exact .inr rfl
          | _ => exact .inl (conforms_of_convert h)
  | variadic nullable =>
      rw [hp] at h
      obtain ⟨items, hi, rfl⟩ := map_eq_ok.mp h
      obtain ⟨e, he⟩ := Host.Ty.isArray_iff.mp
        (ha (Layout.isVariadic_iff.mpr ⟨nullable, hp⟩))
      refine ⟨e, items, he, rfl, ?_⟩
      intro item hm
      obtain ⟨value, hv⟩ := exists_one_of_readAll hi item hm
      have fits := conforms_of_convertElement hv
      rwa [elementType, he] at fits

end Reading

end Argument

namespace Declaration

theorem holds_of_readArguments {arguments : List Argument} {values : List Script.Value}
    {converted : List Host.Value} (ha : ∀ a ∈ arguments, a.isVariadic = true → a.ty.isArray = true)
    (h : (readArguments (.standard []) arguments values).1 = .ok converted) :
    List.Forall₂ Argument.Holds arguments converted := by
  induction arguments generalizing values converted with
  | nil =>
      cases h
      exact .nil
  | cons a rest ih =>
      rw [readArguments] at h
      cases hr : a.read (.standard []) values with
      | mk r left =>
          rw [hr] at h
          cases r with
          | error e => cases h
          | ok v =>
              obtain ⟨later, hl, rfl⟩ := map_eq_ok.mp h
              have holds := Argument.holds_of_read (ha a (List.mem_cons_self ..))
                (show (a.read (.standard []) values).1 = .ok v by rw [hr])
              exact .cons holds (ih (fun b hb => ha b (List.mem_cons_of_mem _ hb)) hl)

/-- A variadic argument of a declaration has the type of an array. -/
theorem isArray_of_parse {s : Signature} {bindings : Host.Bindings} {source : String}
    {c : Classification} {d : Declaration}
    (h : ((Declaration.parse s bindings source).run c).1 = .ok d) {a : Argument}
    (ha : a ∈ d.arguments) (hv : a.isVariadic = true) : a.ty.isArray = true := by
  have mem : Piece.argument a ∈ d.pieces :=
    List.mem_append_right _ (List.mem_map_of_mem ha)
  obtain ⟨p, -, fits⟩ := exists_mem_of_forall₂ (fits_of_parse h) mem
  cases fits with
  | argument hr ht hi hp hs array => exact array hv

/-- The arguments of a declaration hold what is converted for them. -/
theorem holds_of_convertArguments {s : Signature} {bindings : Host.Bindings} {source : String}
    {c : Classification} {d : Declaration}
    (hp : ((Declaration.parse s bindings source).run c).1 = .ok d) {values : List Script.Value}
    {converted : List Host.Value} (h : d.convertArguments (.standard []) values = .ok converted) :
    List.Forall₂ Argument.Holds d.arguments converted :=
  holds_of_readArguments (fun _ => isArray_of_parse hp) (readArguments_of_convertArguments h)

/-- The conversion without rules is sound.  What it answers at a type is of the type,
which null never is, and types without values have no answers.  The arguments of a
declaration hold what is converted for them, and host functions can read it in the forms
that belong to the arguments. -/
theorem conversion_sound :
    (∀ v t r, (Converter.standard []).toHost v t = some r → Host.Conforms r t) ∧
    (∀ t, ¬ Host.Conforms .null t) ∧
    (∀ v, (∀ c, (Converter.standard []).toHost v (.object c) = none) ∧
      (Converter.standard []).toHost v .void = none ∧
      (Converter.standard []).toHost v .multi = none ∧
      ∀ name, (Converter.standard []).toHost v (.var name) = none) ∧
    ∀ (s : Signature) (bindings : Host.Bindings) (source : String) (c : Classification)
      (d : Declaration) (values : List Script.Value) (converted : List Host.Value),
      ((parse s bindings source).run c).1 = .ok d →
      d.convertArguments (.standard []) values = .ok converted →
      List.Forall₂ (fun a v => a.Holds v ∧ ∀ f, a.form? = some f → f.Reads v)
        d.arguments converted := by
  refine ⟨fun v t r => Converter.Standard.conforms_of_toHost, fun t h => h.ne_null rfl, ?_, ?_⟩
  · intro v
    refine ⟨fun c => ?_, ?_, ?_, fun name => ?_⟩
    all_goals exact Converter.Standard.toHost_eq_none (fun r h => by cases h) v
  · intro s bindings source c d values converted hp hc
    exact (holds_of_convertArguments hp hc).imp fun a v h => ⟨h, fun f => h.reads⟩

open Converter.Standard (toHost toHost_eq_some_iff toHostItems_eq_some_iff)
open Script.Table (ofSequence sequence?_ofSequence)

/-- A signature with an argument of each presence. -/
def chart : Signature where
  name := "chart"
  params := [
    .argument "rows" (.list (.array .integer)),
    { Param.argument "title" .string with optional := true },
    { Param.argument "marks" (.array .float) with optional := true, variadic := true }]

/-- Two numbers in a row, no title, and a missing mark before another. -/
def charted : List Script.Value :=
  [.table (ofSequence [.table (ofSequence [.ofInt 2, .ofInt 3])]),
    .nil, .nil, .number (.ofInt 4)]

/-- The values are accepted, and they arrive as lists, arrays, nulls and numbers. -/
theorem conversion_sound_chart :
    ∃ d converted, ((parse chart .empty "").run .empty).1 = .ok d ∧
      d.convertArguments (.standard []) charted = .ok converted ∧
      converted = [.list [.array [.integer 2, .integer 3]], .null,
        .array [.null, .float (.ofInt 4)]] ∧
      Host.Conforms (.list [.array [.integer 2, .integer 3]]) (.list (.array .integer)) ∧
      List.Forall₂ (fun a v => a.Holds v ∧ ∀ f, a.form? = some f → f.Reads v)
        d.arguments converted := by
  have numbers : List.Forall₂ (fun v r => toHost [] v .integer = some r)
      [.ofInt 2, .ofInt 3] [.integer 2, .integer 3] := by
    refine .cons ?_ (.cons ?_ .nil)
    all_goals exact toHost_eq_some_iff.mpr (.integer (by decide +kernel))
  have row : toHost [] (.table (ofSequence [.ofInt 2, .ofInt 3])) (.array .integer) =
      some (.array [.integer 2, .integer 3]) :=
    toHost_eq_some_iff.mpr (.array
      (toHostItems_eq_some_iff.mpr ⟨_, sequence?_ofSequence (by decide), numbers⟩))
  have rows : (Converter.standard []).toHost
      (.table (ofSequence [.table (ofSequence [.ofInt 2, .ofInt 3])])) (.list (.array .integer)) =
      some (.list [.array [.integer 2, .integer 3]]) :=
    toHost_eq_some_iff.mpr (.list
      (toHostItems_eq_some_iff.mpr ⟨_, sequence?_ofSequence (by decide), .cons row .nil⟩))
  have mark : (Converter.standard []).toHost (.number (.ofInt 4)) .float =
      some (.float (.ofInt 4)) :=
    toHost_eq_some_iff.mpr (.float _)
  obtain ⟨d, parsed, arguments⟩ : ∃ d, ((parse chart .empty "").run .empty).1 = .ok d ∧
      d.arguments = [⟨"rows", "", .tag .table, .list (.array .integer), 0, .required⟩,
        ⟨"title", "", .tag .string, .string, 1, .optional⟩,
        ⟨"marks", "", .tag .number, .array .float, 2, .variadic true⟩] := ⟨_, rfl, rfl⟩
  have accepted : d.convertArguments (.standard []) charted =
      .ok [.list [.array [.integer 2, .integer 3]], .null, .array [.null, .float (.ofInt 4)]] := by
    simp [convertArguments, readArguments, Argument.read, Argument.readAll,
      Argument.convertElement, Argument.convert, Argument.elementType, Host.Ty.element?, arguments,
      charted, rows, mark, Except.map]
  exact ⟨d, _, parsed, accepted, rfl, conversion_sound.1 _ _ _ rows,
    conversion_sound.2.2.2 chart .empty "" .empty d charted _ parsed accepted⟩

end Declaration

end HostBridge
