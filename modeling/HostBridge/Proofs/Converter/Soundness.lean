import HostBridge.Proofs.Converter.Plain

/-!
# Soundness of the conversion without rules

`Conforms` says which host values are of a type.  Null and objects are of none, so they
do not occur inside a value of a type either.

Whatever a conversion to a type answers is of the type.  The induction is on the size of
the script value, since the type does not get smaller: natural forms are asked for again
at every depth.
-/

namespace HostBridge

/-- The value is of the type. -/
inductive Host.Conforms : Host.Value → Host.Ty → Prop where
  | boolean (b : Bool) : Conforms (.boolean b) .boolean
  | integer (n : Int64) : Conforms (.integer n) .integer
  | float (x : Binary64) : Conforms (.float x) .float
  | string (s : String) : Conforms (.string s) .string
  | array {items : List Value} {e : Ty} (h : ∀ v ∈ items, Conforms v e) :
      Conforms (.array items) (.array e)
  | list {items : List Value} {e : Ty} (h : ∀ v ∈ items, Conforms v e) :
      Conforms (.list items) (.list e)
  | set {items : List Value} {e : Ty} (h : ∀ v ∈ items, Conforms v e) :
      Conforms (.list items) (.set e)
  | map {entries : List (Value × Value)} {key val : Ty} (hk : ∀ e ∈ entries, Conforms e.1 key)
      (hv : ∀ e ∈ entries, Conforms e.2 val) : Conforms (.map entries) (.map key val)
  | anyBoolean (b : Bool) : Conforms (.boolean b) .any
  | anyFloat (x : Binary64) : Conforms (.float x) .any
  | anyString (s : String) : Conforms (.string s) .any
  | anyList {items : List Value} (h : ∀ v ∈ items, Conforms v .any) : Conforms (.list items) .any
  | anyMap {entries : List (Value × Value)} (hk : ∀ e ∈ entries, Conforms e.1 .any)
      (hv : ∀ e ∈ entries, Conforms e.2 .any) : Conforms (.map entries) .any

theorem Host.Conforms.ne_null {v : Host.Value} {t : Host.Ty} (h : Conforms v t) :
    v ≠ .null := by
  cases h <;> exact nofun

namespace Converter.Standard

open Script (Table)
open Host (Conforms)

theorem toHost_any (v : Script.Value) : toHost [] v .any = natural [] v := by
  rw [toHost.eq_def]
  rfl

/-- Conversions of everything smaller than a value are sound. -/
def SoundBelow (v : Script.Value) : Prop :=
  ∀ w : Script.Value, w.weight < v.weight → ∀ t r, toHost [] w t = some r → Conforms r t

theorem conforms_of_toHostItems {t : Table} {e : Host.Ty} {rs : List Host.Value}
    (ih : SoundBelow (.table t)) (h : toHostItems [] t e = some rs) : ∀ r ∈ rs, Conforms r e := by
  obtain ⟨vs, hs, converted⟩ := toHostItems_eq_some_iff.mp h
  intro r hr
  obtain ⟨v, hv, h⟩ := exists_mem_of_forall₂ converted hr
  exact ih v (Table.weight_lt_of_sequence? hs hv) e r h

theorem conforms_of_entries {t : Table} {key val : Host.Ty} {rs : List (Host.Value × Host.Value)}
    (ih : SoundBelow (.table t))
    (h : List.Forall₂ (fun e r => toHost [] e.1 key = some r.1 ∧ toHost [] e.2 val = some r.2)
      t rs) : (∀ r ∈ rs, Conforms r.1 key) ∧ ∀ r ∈ rs, Conforms r.2 val := by
  constructor
  · intro r hr
    obtain ⟨e, he, hk, -⟩ := exists_mem_of_forall₂ h hr
    exact ih e.1 (Script.Value.weight_lt_of_mem he).1 key r.1 hk
  · intro r hr
    obtain ⟨e, he, -, hv⟩ := exists_mem_of_forall₂ h hr
    exact ih e.2 (Script.Value.weight_lt_of_mem he).2 val r.2 hv

theorem conforms_of_natural {v : Script.Value} {r : Host.Value} (ih : SoundBelow v)
    (h : natural [] v = some r) : Conforms r .any := by
  cases natural_eq_some_iff.mp h with
  | boolean b => exact .anyBoolean b
  | number x => exact .anyFloat x
  | string s => exact .anyString s
  | list items => exact .anyList (conforms_of_toHostItems ih items)
  | map _ entries =>
      simp only [← toHost_any] at entries
      obtain ⟨hk, hv⟩ := conforms_of_entries ih entries
      exact .anyMap hk hv

/-- What converts to a type is of the type. -/
theorem conforms_of_toHost {v : Script.Value} {t : Host.Ty} {r : Host.Value}
    (h : toHost [] v t = some r) : Conforms r t := by
  induction hn : v.weight using Nat.strongRecOn generalizing v t r with
  | _ n below =>
    have ih : SoundBelow v := fun w hw t r h => below w.weight (hn ▸ hw) h rfl
    cases toHost_eq_some_iff.mp h with
    | any form => exact conforms_of_natural ih form
    | boolean b => exact .boolean b
    | integer _ => exact .integer _
    | float x => exact .float x
    | string s => exact .string s
    | text x => exact .string _
    | array items => exact .array (conforms_of_toHostItems ih items)
    | list items => exact .list (conforms_of_toHostItems ih items)
    | set items => exact .set (conforms_of_toHostItems ih items)
    | map entries =>
        obtain ⟨hk, hv⟩ := conforms_of_entries ih entries
        exact .map hk hv

/-- Nothing converts to a type without values. -/
theorem toHost_eq_none {t : Host.Ty} (h : ∀ r, ¬ Conforms r t) (v : Script.Value) :
    toHost [] v t = none := by
  cases hc : toHost [] v t with
  | none => rfl
  | some r => exact absurd (conforms_of_toHost hc) (h r)

end Converter.Standard

end HostBridge
