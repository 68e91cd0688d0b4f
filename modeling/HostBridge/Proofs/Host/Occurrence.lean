import HostBridge.Host.Value
import HostBridge.Proofs.Script.Sequence

/-!
# Values inside of values

A value occurs in another if it is the value itself, or occurs in an item, in a key or in a
value of an entry.  What is asked of a value at all depths is asked of all that occurs in
it.

Tables have numbers as keys, and these count up to `2 ^ 53` exactly.  A value is *counted*
if no sequence that occurs in it has more items.  No memory holds another.
-/

namespace HostBridge.Host.Value

/-- What holds of values without parts, and of each value that has parts if it holds of these,
holds of all values. -/
@[elab_as_elim]
theorem inductionOnParts {motive : Value → Prop}
    (scalar : ∀ v : Value, v.items? = none → (∀ es, v ≠ .map es) → motive v)
    (sequence : ∀ (v : Value) (items : List Value), v.items? = some items →
      (∀ item ∈ items, motive item) → motive v)
    (map : ∀ entries : List (Value × Value), (∀ e ∈ entries, motive e.1 ∧ motive e.2) →
      motive (.map entries))
    (v : Value) : motive v := by
  induction hn : v.weight using Nat.strongRecOn generalizing v with
  | _ n below =>
    have part (w : Value) (hw : w.weight < v.weight) : motive w := below w.weight (hn ▸ hw) w rfl
    cases v with
    | array items => exact sequence _ items rfl fun w hw => part w (weight_lt_of_mem_items hw)
    | list items => exact sequence _ items rfl fun w hw => part w (weight_lt_of_mem_items hw)
    | multi items => exact sequence _ items rfl fun w hw => part w (weight_lt_of_mem_items hw)
    | map entries =>
        refine map entries fun e he => ?_
        obtain ⟨key, value⟩ := weight_lt_of_mem_entries he
        exact ⟨part _ key, part _ value⟩
    | _ => exact scalar _ rfl nofun

/-- A value occurs in another. -/
inductive Occurs : Value → Value → Prop where
  | here {v : Value} : Occurs v v
  | item {v w item : Value} {items : List Value} (hw : w.items? = some items) (hi : item ∈ items)
      (h : Occurs v item) : Occurs v w
  | key {v : Value} {e : Value × Value} {entries : List (Value × Value)} (he : e ∈ entries)
      (h : Occurs v e.1) : Occurs v (.map entries)
  | value {v : Value} {e : Value × Value} {entries : List (Value × Value)} (he : e ∈ entries)
      (h : Occurs v e.2) : Occurs v (.map entries)

theorem occurs_of_items {v w : Value} {items : List Value} (hw : w.items? = some items) :
    v.Occurs w ↔ v = w ∨ ∃ item ∈ items, v.Occurs item := by
  constructor
  · intro h
    cases h with
    | here => exact .inl rfl
    | item hw' hi h =>
        cases hw.symm.trans hw'
        exact .inr ⟨_, hi, h⟩
    | key => cases hw
    | value => cases hw
  · rintro (rfl | ⟨item, hi, h⟩)
    · exact .here
    · exact .item hw hi h

theorem occurs_map {v : Value} {entries : List (Value × Value)} :
    v.Occurs (.map entries) ↔
      v = .map entries ∨ ∃ e ∈ entries, v.Occurs e.1 ∨ v.Occurs e.2 := by
  constructor
  · intro h
    cases h with
    | here => exact .inl rfl
    | item hw => cases hw
    | key he h => exact .inr ⟨_, he, .inl h⟩
    | value he h => exact .inr ⟨_, he, .inr h⟩
  · rintro (rfl | ⟨e, he, h | h⟩)
    · exact .here
    · exact .key he h
    · exact .value he h

/-- Nothing but itself occurs in a value without parts. -/
theorem occurs_of_no_parts {v w : Value} (hw : w.items? = none) (hm : ∀ es, w ≠ .map es) :
    v.Occurs w ↔ v = w := by
  constructor
  · intro h
    cases h with
    | here => rfl
    | item hw' => cases hw.symm.trans hw'
    | key => exact absurd rfl (hm _)
    | value => exact absurd rfl (hm _)
  · rintro rfl
    exact .here

/-! ## Counted sequences -/

/-- Keys tell the items of every sequence apart that occurs in the value. -/
def Counted (n : Value) : Prop :=
  ∀ (w : Value) (items : List Value), w.Occurs n → w.items? = some items →
    items.length ≤ Script.Table.places

theorem counted_of_items {w : Value} {items : List Value} (hw : w.items? = some items) :
    w.Counted ↔ items.length ≤ Script.Table.places ∧ ∀ item ∈ items, item.Counted := by
  constructor
  · intro h
    exact ⟨h w items .here hw, fun item hi v _ hv => h v _ (.item hw hi hv)⟩
  · rintro ⟨few, each⟩ v others hv hs
    rcases (occurs_of_items hw).mp hv with rfl | ⟨item, hi, hv⟩
    · cases hw.symm.trans hs
      exact few
    · exact each item hi v others hv hs

theorem counted_map {entries : List (Value × Value)} :
    (map entries).Counted ↔ ∀ e ∈ entries, e.1.Counted ∧ e.2.Counted := by
  constructor
  · intro h e he
    exact ⟨fun v _ hv => h v _ (.key he hv), fun v _ hv => h v _ (.value he hv)⟩
  · intro each v items hv hs
    rcases occurs_map.mp hv with rfl | ⟨e, he, hv | hv⟩
    · cases hs
    · exact (each e he).1 v items hv hs
    · exact (each e he).2 v items hv hs

theorem counted_of_no_parts {w : Value} (hw : w.items? = none) (hm : ∀ es, w ≠ .map es) :
    w.Counted := by
  intro v items hv hs
  cases (occurs_of_no_parts hw hm).mp hv
  cases hw.symm.trans hs

end HostBridge.Host.Value
