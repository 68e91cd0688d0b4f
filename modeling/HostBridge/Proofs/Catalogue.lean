import Mathlib.Data.List.Basic
import HostBridge.Catalogue

/-!
# Look-up of adapters

A catalogue finds the adapters for a class through an index of positions.  `serving`
says what it finds without an index: for the class and then for each of its ancestors,
the adapters for exactly that class, in the order of registration.

`Numbered` says that the positions kept for a target are all those of adapters for it, in
ascending order.  It holds of the empty catalogue, and registering an adapter keeps it.  So
the index finds what serves a class (`Numbered.adaptersFor`).
-/

namespace HostBridge

variable {σ : Type}

/-- The adapters for objects of a class: for the class first, then for its ancestors
from the nearest outwards, each group in order. -/
def serving (adapters : List (Adapter σ)) (cls : Host.Class) : List (Adapter σ) :=
  cls.lineage.flatMap fun id => adapters.filter fun a => a.target.id = id

/-- What serves a class is registered. -/
theorem mem_of_mem_serving {adapters : List (Adapter σ)} {cls : Host.Class} {a : Adapter σ}
    (h : a ∈ serving adapters cls) : a ∈ adapters := by
  obtain ⟨id, -, ha⟩ := List.mem_flatMap.mp h
  exact (List.mem_filter.mp ha).1

/-- Two descriptions with the same identities are served by the same adapters. -/
theorem serving_congr (adapters : List (Adapter σ)) {c c' : Host.Class} (hid : c.id = c'.id)
    (h : c.ancestors = c'.ancestors) : serving adapters c = serving adapters c' := by
  rw [serving, serving, Host.Class.lineage, Host.Class.lineage, hid, h]

namespace Catalogue

/-- The positions kept for a class of targets. -/
def positionsOf (c : Catalogue σ) (id : TypeId) : List Nat := (c.byTarget.find? id).getD []

theorem positionsOf_register (c : Catalogue σ) (a : Adapter σ) (id : TypeId) :
    (c.register a).positionsOf id =
      if a.target.id = id then c.positionsOf id ++ [c.adapters.length] else c.positionsOf id := by
  rw [positionsOf, positionsOf, register, Dict.find?_insert]
  by_cases h : a.target.id = id
  · rw [if_pos h, if_pos h, h]
    rfl
  · rw [if_neg h, if_neg h]

/-- The adapters for a target, with their positions. -/
def numbered (adapters : List (Adapter σ)) (id : TypeId) : List (Adapter σ × Nat) :=
  adapters.zipIdx.filter fun x => x.1.target.id = id

theorem mem_numbered {adapters : List (Adapter σ)} {id : TypeId} {x : Adapter σ × Nat} :
    x ∈ numbered adapters id ↔ x ∈ adapters.zipIdx ∧ x.1.target.id = id := by
  rw [numbered, List.mem_filter, decide_eq_true_iff]

theorem getElem?_of_mem_numbered {adapters : List (Adapter σ)} {id : TypeId}
    {x : Adapter σ × Nat} (h : x ∈ numbered adapters id) : adapters[x.2]? = some x.1 :=
  List.mem_zipIdx_iff_getElem?.mp (mem_numbered.mp h).1

theorem map_fst_numbered (adapters : List (Adapter σ)) (id : TypeId) :
    (numbered adapters id).map Prod.fst = adapters.filter fun a => a.target.id = id := by
  have target : (fun x : Adapter σ × Nat => decide (x.1.target.id = id)) =
      (fun a : Adapter σ => decide (a.target.id = id)) ∘ Prod.fst := rfl
  rw [numbered, target, ← List.filter_map, List.zipIdx_map_fst]

theorem numbered_concat (adapters : List (Adapter σ)) (a : Adapter σ) (id : TypeId) :
    numbered (adapters ++ [a]) id =
      numbered adapters id ++ if a.target.id = id then [(a, adapters.length)] else [] := by
  rw [numbered, List.zipIdx_append, List.filter_append, List.zipIdx_singleton,
    List.filter_singleton, Nat.zero_add]
  by_cases h : a.target.id = id <;> simp [numbered, h]

/-- The positions kept for each target are those of the adapters for it. -/
def Numbered (c : Catalogue σ) : Prop :=
  ∀ id, c.positionsOf id = (numbered c.adapters id).map Prod.snd

theorem numbered_empty : (empty : Catalogue σ).Numbered := fun _ => rfl

theorem Numbered.register {c : Catalogue σ} (h : c.Numbered) (a : Adapter σ) :
    (c.register a).Numbered := by
  intro id
  rw [positionsOf_register, h id, show (c.register a).adapters = c.adapters ++ [a] from rfl,
    numbered_concat, List.map_append]
  split
  · rfl
  · exact (List.append_nil _).symm

/-- At the positions kept for a target are the adapters for it, in order. -/
theorem Numbered.filterMap_positionsOf {c : Catalogue σ} (h : c.Numbered) (id : TypeId) :
    ((c.positionsOf id).filterMap fun i => c.adapters[i]?) =
      c.adapters.filter fun a => a.target.id = id := by
  rw [h id, List.filterMap_map, ← map_fst_numbered, ← List.filterMap_eq_map]
  exact List.filterMap_congr fun x hx => getElem?_of_mem_numbered hx

/-- The index finds what serves a class. -/
theorem Numbered.adaptersFor {c : Catalogue σ} (h : c.Numbered) (cls : Host.Class) :
    c.adaptersFor cls = serving c.adapters cls := by
  rw [Catalogue.adaptersFor, positionsFor, List.filterMap_flatMap, serving]
  exact congrArg (List.flatMap · _) (funext h.filterMap_positionsOf)

end Catalogue

end HostBridge
