import HostBridge.Converter.Standard

/-!
# Ready-made conversion rules

Rules for conventions that hosts often have: nil for null, one value for a list
of one, texts for truth values, texts for objects of a class that stand for
names, and texts that must not reach scripts.

`singleItems` asks the whole converter about the item, so it works together with
the other rules.
-/

namespace HostBridge.Converter.Rule

/-- Nil is null at every type. -/
def nilAsNull : Rule where
  toHost v _ _ := if v.isNil then some .null else none
  toScript _ _ := none

/-- A value that is no table is a list with one item, and the other way round. -/
def singleItems : Rule where
  toHost v t ask :=
    match t, ask with
    | .list e, ask =>
        if v.table?.isSome then none
        else (ask v e (Or.inr ⟨rfl, by simp [Host.Ty.weight]⟩)).map fun x => .list [x]
    | _, _ => none
  toScript v ask :=
    match v, ask with
    | .list [x], ask => some (ask x (by simp [Host.Value.weight, Host.Value.weightItems]))
    | _, _ => none

/-- Truth values are spelled. -/
def spelledTruth : Rule where
  toHost v t _ :=
    match t, v with
    | .boolean, .string "true" => some (.boolean true)
    | .boolean, .string "false" => some (.boolean false)
    | _, _ => none
  toScript v _ :=
    match v with
    | .boolean b => some (.ok (.string (if b then "true" else "false")))
    | _ => none

/-- Objects of a class are made from their names and shown as tables with them. -/
def namedObjects (className : String) : Rule where
  toHost v t _ :=
    match t, v with
    | .object c, .string s => if c.name = className then some (.object ⟨c, .text s, 0⟩) else none
    | _, _ => none
  toScript v _ :=
    match v with
    | .object ⟨c, .text s, _⟩ =>
        if c.name = className then some (.ok (.table [(.string "name", .string s)])) else none
    | _ => none

/-- A text that has no script value. -/
def withheldText (text : String) : Rule where
  toHost _ _ _ := none
  toScript v _ :=
    match v with
    | .string s => if s = text then some (.error (.unrepresentable s)) else none
    | _ => none

end HostBridge.Converter.Rule
