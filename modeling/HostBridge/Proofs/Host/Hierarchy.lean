import Mathlib.Data.List.Nodup
import Mathlib.Logic.Relation
import HostBridge.Host.Class

/-!
# Hierarchies of classes

A hierarchy says which parents each class has, in order.  A class is declared over it in
steps, from a class without ancestors and with one parent after the other, and every
parent was declared with all its own parents (`Declared`).

The ancestors listed are then those the hierarchy gives (`Declared.mem_ancestors_iff`).  No
class derives from itself, since a class can only be declared after its parents.

They are listed in the order of the search.  `SpecificFirst` says that this order never has
a class before one that derives from it.  A parent that shares an ancestor with an earlier
one spoils it, unless the parent is an ancestor already, and nothing else does
(`Built.specificFirst_iff`).
-/

namespace HostBridge.Host

/-! ## Hierarchies -/

/-- The parents of each class, in order. -/
abbrev Hierarchy := TypeId → List TypeId

namespace Hierarchy

variable {H : Hierarchy} {ps : List TypeId} {p x y : TypeId}

/-- The second class is an ancestor of the first. -/
def Derives (H : Hierarchy) : TypeId → TypeId → Prop := Relation.TransGen fun y x => x ∈ H y

/-- The second class is the first or one of its ancestors. -/
def Reaches (H : Hierarchy) : TypeId → TypeId → Prop := Relation.ReflTransGen fun y x => x ∈ H y

/-- A class is one of those given or an ancestor of one. -/
def Brings (H : Hierarchy) (ps : List TypeId) (x : TypeId) : Prop := ∃ p ∈ ps, H.Reaches p x

/-- Every further parent is an ancestor already, or shares no class with the ancestors that
the earlier ones brought. -/
def Orderly (H : Hierarchy) (ps : List TypeId) : Prop :=
  ∀ earlier p later, ps = earlier ++ p :: later →
    H.Brings earlier p ∨ ∀ x, H.Reaches p x → ¬ H.Brings earlier x

theorem reaches_iff : H.Reaches y x ↔ x = y ∨ H.Derives y x :=
  Relation.reflTransGen_iff_eq_or_transGen

/-- What the parents of a class bring are its ancestors. -/
theorem brings_parents_iff : H.Brings (H y) x ↔ H.Derives y x := by
  rw [Derives, Relation.TransGen.head'_iff]
  rfl

theorem brings_append_iff {qs : List TypeId} :
    H.Brings (ps ++ qs) x ↔ H.Brings ps x ∨ H.Brings qs x := by
  simp [Brings, or_and_right, exists_or]

theorem brings_singleton_iff : H.Brings [p] x ↔ H.Reaches p x := by
  simp [Brings]

theorem orderly_nil : H.Orderly [] := by
  intro earlier p later h
  simp at h

/-- One more parent has to fit those before it. -/
theorem orderly_concat_iff :
    H.Orderly (ps ++ [p]) ↔
      H.Orderly ps ∧ (H.Brings ps p ∨ ∀ x, H.Reaches p x → ¬ H.Brings ps x) := by
  constructor
  · intro h
    refine ⟨?_, h ps p [] rfl⟩
    rintro earlier q later rfl
    exact h earlier q (later ++ [p]) (by simp)
  · rintro ⟨before, last⟩ earlier q later split
    rcases List.eq_nil_or_concat later with rfl | ⟨later, r, rfl⟩
    · obtain ⟨rfl, rfl⟩ : ps = earlier ∧ p = q := by simpa using split
      exact last
    · refine before earlier q later ?_
      have split : ps ++ [p] = (earlier ++ q :: later) ++ [r] := by simpa using split
      exact (List.append_inj' split rfl).1

end Hierarchy

namespace Class

open Hierarchy (Orderly)

/-! ## Collecting ancestors -/

section AddNew

variable {α : Type} [DecidableEq α] {xs ys : List α} {x y : α}

theorem mem_addNew : x ∈ addNew xs y ↔ x ∈ xs ∨ x = y := by
  rw [addNew]
  split
  · rename_i h
    constructor
    · exact Or.inl
    · rintro (old | rfl)
      · exact old
      · exact h
  · simp

theorem mem_foldl_addNew : x ∈ ys.foldl addNew xs ↔ x ∈ xs ∨ x ∈ ys := by
  induction ys generalizing xs with
  | nil => simp
  | cons y ys ih => rw [List.foldl_cons, ih, mem_addNew, List.mem_cons, or_assoc]

theorem nodup_foldl_addNew (h : xs.Nodup) : (ys.foldl addNew xs).Nodup := by
  induction ys generalizing xs with
  | nil => exact h
  | cons y ys ih =>
      refine ih ?_
      rw [addNew]
      split
      · exact h
      · rename_i absent
        exact List.Nodup.append h (List.nodup_singleton y) (List.disjoint_singleton.mpr absent)

/-- What is listed stays where it is. -/
theorem prefix_foldl_addNew : xs <+: ys.foldl addNew xs := by
  induction ys generalizing xs with
  | nil => exact List.prefix_rfl
  | cons y ys ih =>
      refine List.IsPrefix.trans ?_ ih
      rw [addNew]
      split
      · exact List.prefix_rfl
      · exact List.prefix_append ..

theorem foldl_addNew_of_subset (h : ys ⊆ xs) : ys.foldl addNew xs = xs := by
  induction ys with
  | nil => rfl
  | cons y ys ih =>
      obtain ⟨head, tail⟩ := List.cons_subset.mp h
      rw [List.foldl_cons, addNew, if_pos head, ih tail]

theorem foldl_addNew_of_disjoint (hn : ys.Nodup) (hd : List.Disjoint xs ys) :
    ys.foldl addNew xs = xs ++ ys := by
  induction ys generalizing xs with
  | nil => simp
  | cons y ys ih =>
      obtain ⟨absent, disjoint⟩ := List.disjoint_cons_right.mp hd
      obtain ⟨fresh, nodup⟩ := List.nodup_cons.mp hn
      rw [List.foldl_cons, addNew, if_neg absent, ih nodup, List.append_assoc,
        List.singleton_append]
      exact List.disjoint_append_left.mpr ⟨disjoint, List.singleton_disjoint.mpr fresh⟩

end AddNew

@[simp] theorem ancestors_root (name : String) : (root name).ancestors = [] := rfl

theorem ancestors_deriveFrom (c p : Class) :
    (c.deriveFrom p).ancestors = p.lineage.foldl addNew c.ancestors := by
  simp [deriveFrom, derive]

theorem derive_cons (c p : Class) (ps : List Class) :
    c.derive (p :: ps) = (c.deriveFrom p).derive ps := by
  simp [deriveFrom, derive, List.foldl_append]

/-- The class was made from classes without ancestors, by giving them parents. -/
inductive Assembled : Class → Prop
  | root (name : String) : Assembled (.root name)
  | derive {c : Class} {parents : List Class} (hc : Assembled c)
      (hp : ∀ p ∈ parents, Assembled p) : Assembled (c.derive parents)

/-- Parents are listed with all their ancestors. -/
theorem lineage_subset_derive {c p : Class} {parents : List Class} (h : p ∈ parents) :
    p.lineage ⊆ (c.derive parents).ancestors := by
  intro x hx
  exact mem_foldl_addNew.mpr (.inr (List.mem_flatMap.mpr ⟨p, h, hx⟩))

theorem Assembled.nodup_ancestors {c : Class} (h : c.Assembled) : c.ancestors.Nodup := by
  induction h with
  | root name => exact List.nodup_nil
  | derive _ _ ih _ => exact nodup_foldl_addNew ih

/-! ## Declarations -/

/-- The class has so far been given the parents of the list, each of them complete. -/
inductive Declared (H : Hierarchy) : Class → List TypeId → Prop
  | root (name : String) : Declared H (.root name) []
  | deriveFrom {c p : Class} {ps : List TypeId} (hc : Declared H c ps)
      (hp : Declared H p (H p.id)) : Declared H (c.deriveFrom p) (ps ++ [p.id])

/-- The class has all its parents. -/
def Built (H : Hierarchy) (c : Class) : Prop := Declared H c (H c.id)

variable {H : Hierarchy} {c p : Class} {ps : List TypeId} {x y : TypeId}

/-- Several parents may be given at once. -/
theorem Declared.derive {parents : List Class} (h : Declared H c ps)
    (hp : ∀ p ∈ parents, p.Built H) : Declared H (c.derive parents) (ps ++ parents.map id) := by
  induction parents generalizing c ps with
  | nil => simpa [Class.derive] using h
  | cons p parents ih =>
      obtain ⟨first, rest⟩ := List.forall_mem_cons.mp hp
      rw [derive_cons, List.map_cons, List.append_cons]
      exact ih (h.deriveFrom first) rest

theorem built_root {name : String} (h : H (.ofName name) = []) : (root name).Built H := by
  rw [Built, show H (root name).id = [] from h]
  exact .root name

theorem built_derive {name : String} {parents : List Class}
    (h : H (.ofName name) = parents.map id) (hp : ∀ p ∈ parents, p.Built H) :
    ((root name).derive parents).Built H := by
  rw [Built, show H ((root name).derive parents).id = parents.map id from h]
  exact (Declared.root name).derive hp

/-- The ancestors listed are what the parents bring. -/
theorem Declared.mem_ancestors_iff (h : Declared H c ps) : x ∈ c.ancestors ↔ H.Brings ps x := by
  induction h with
  | root name => simp [Hierarchy.Brings]
  | deriveFrom hc hp ihc ihp =>
      rw [ancestors_deriveFrom, mem_foldl_addNew, ihc, lineage, List.mem_cons, ihp,
        Hierarchy.brings_append_iff, Hierarchy.brings_singleton_iff, Hierarchy.reaches_iff,
        Hierarchy.brings_parents_iff]

theorem Built.mem_ancestors_iff (h : c.Built H) : x ∈ c.ancestors ↔ H.Derives c.id x := by
  rw [Declared.mem_ancestors_iff h, Hierarchy.brings_parents_iff]

theorem Built.mem_lineage_iff (h : c.Built H) : x ∈ c.lineage ↔ H.Reaches c.id x := by
  rw [lineage, List.mem_cons, h.mem_ancestors_iff, Hierarchy.reaches_iff]

theorem Declared.nodup_ancestors (h : Declared H c ps) : c.ancestors.Nodup := by
  induction h with
  | root name => exact List.nodup_nil
  | deriveFrom hc hp ihc ihp =>
      rw [ancestors_deriveFrom]
      exact nodup_foldl_addNew ihc

/-- No ancestor derives from itself. -/
theorem Declared.acyclic (h : Declared H c ps) : ∀ x, H.Brings ps x → ¬ H.Derives x x := by
  induction h with
  | root name => simp [Hierarchy.Brings]
  | @deriveFrom c p ps hc hp ihc ihp =>
      -- A loop through the new parent would be one among its own parents.
      intro x hx loop
      rcases Hierarchy.brings_append_iff.mp hx with old | new
      · exact ihc x old loop
      · refine ihp x (Hierarchy.brings_parents_iff.mpr ?_) loop
        rcases Hierarchy.reaches_iff.mp (Hierarchy.brings_singleton_iff.mp new) with rfl | derives
        · exact loop
        · exact derives

theorem Built.acyclic (h : c.Built H) (hx : x ∈ c.lineage) : ¬ H.Derives x x := by
  intro loop
  refine Declared.acyclic h x (Hierarchy.brings_parents_iff.mpr ?_) loop
  rcases Hierarchy.reaches_iff.mp (h.mem_lineage_iff.mp hx) with rfl | derives
  · exact loop
  · exact derives

theorem Built.nodup_lineage (h : c.Built H) : c.lineage.Nodup := by
  refine List.nodup_cons.mpr ⟨fun loop => ?_, Declared.nodup_ancestors h⟩
  exact h.acyclic (List.mem_cons_self ..) (h.mem_ancestors_iff.mp loop)

/-! ## The order of ancestors -/

/-- No class of the list stands before one that derives from it. -/
def SpecificFirst (H : Hierarchy) (xs : List TypeId) : Prop :=
  xs.Pairwise fun x y => ¬ H.Derives y x

/-- A class comes before its ancestors. -/
theorem Built.specificFirst_lineage_iff (h : c.Built H) :
    SpecificFirst H c.lineage ↔ SpecificFirst H c.ancestors := by
  refine List.pairwise_cons.trans (and_iff_right_of_imp fun _ y hy loop => ?_)
  exact h.acyclic (List.mem_cons_self ..) ((h.mem_ancestors_iff.mp hy).trans loop)

/-- A parent that is an ancestor already changes nothing. -/
theorem ancestors_deriveFrom_of_mem (hc : Declared H c ps) (hp : p.Built H)
    (h : p.id ∈ c.ancestors) : (c.deriveFrom p).ancestors = c.ancestors := by
  rw [ancestors_deriveFrom]
  refine foldl_addNew_of_subset fun x hx => ?_
  obtain ⟨q, hq, reaches⟩ := hc.mem_ancestors_iff.mp h
  exact hc.mem_ancestors_iff.mpr ⟨q, hq, reaches.trans (hp.mem_lineage_iff.mp hx)⟩

/-- A parent that shares no class comes at the end with all its ancestors. -/
theorem ancestors_deriveFrom_of_disjoint (hp : p.Built H)
    (h : List.Disjoint c.ancestors p.lineage) :
    (c.deriveFrom p).ancestors = c.ancestors ++ p.lineage := by
  rw [ancestors_deriveFrom, foldl_addNew_of_disjoint hp.nodup_lineage h]

/-- A further parent that is new must share no class, for it derives from all its own
ancestors and is listed after those of the class. -/
theorem disjoint_of_specificFirst (hp : p.Built H) (new : p.id ∉ c.ancestors)
    (h : SpecificFirst H (c.deriveFrom p).ancestors) : List.Disjoint c.ancestors p.lineage := by
  have first : c.ancestors ++ [p.id] <+: (c.deriveFrom p).ancestors := by
    rw [ancestors_deriveFrom, lineage, List.foldl_cons, addNew, if_neg new]
    exact prefix_foldl_addNew
  obtain ⟨-, -, cross⟩ := List.pairwise_append.mp (h.sublist first.sublist)
  intro x hx shared
  rcases List.mem_cons.mp shared with rfl | shared
  · exact new hx
  · exact cross x hx p.id (List.mem_singleton_self _) (hp.mem_ancestors_iff.mp shared)

/-- If a parent shares no class, the order is right exactly if both parts are. -/
theorem specificFirst_append_iff (hp : p.Built H) {xs : List TypeId}
    (h : List.Disjoint xs p.lineage) :
    SpecificFirst H (xs ++ p.lineage) ↔ SpecificFirst H xs ∧ SpecificFirst H p.ancestors := by
  rw [SpecificFirst, List.pairwise_append, ← hp.specificFirst_lineage_iff]
  refine and_congr_right fun _ => and_iff_left fun x hx y hy derives => ?_
  have reaches := (hp.mem_lineage_iff.mp hy).trans derives.to_reflTransGen
  exact h hx (hp.mem_lineage_iff.mpr reaches)

/-- The order is right exactly if every further parent fits, of the class and of its
ancestors. -/
theorem Declared.specificFirst_iff (h : Declared H c ps) :
    SpecificFirst H c.ancestors ↔ H.Orderly ps ∧ ∀ x ∈ c.ancestors, H.Orderly (H x) := by
  -- The induction is on the steps of the declaration, and speaks of the parents so far.
  induction h with
  | root name => simp [SpecificFirst, Hierarchy.orderly_nil]
  | @deriveFrom c p ps hc hp ihc ihp =>
      have built : p.Built H := hp
      rw [Hierarchy.orderly_concat_iff, ← hc.mem_ancestors_iff]
      by_cases old : p.id ∈ c.ancestors
      · rw [ancestors_deriveFrom_of_mem hc built old, ihc, and_iff_left (Or.inl old)]
      · have shared : (∀ x, H.Reaches p.id x → ¬ H.Brings ps x) ↔
            List.Disjoint c.ancestors p.lineage := by
          rw [List.disjoint_comm, List.Disjoint]
          simp only [hc.mem_ancestors_iff, built.mem_lineage_iff]
        rw [or_iff_right old, shared]
        by_cases disjoint : List.Disjoint c.ancestors p.lineage
        · rw [ancestors_deriveFrom_of_disjoint built disjoint,
            specificFirst_append_iff built disjoint, ihc, ihp, List.forall_mem_append,
            and_iff_left disjoint, lineage, List.forall_mem_cons, and_assoc]
        · exact iff_of_false (disjoint <| disjoint_of_specificFirst built old ·)
            fun fits => disjoint fits.1.2

theorem Built.specificFirst_iff (h : c.Built H) :
    SpecificFirst H c.ancestors ↔ ∀ x ∈ c.lineage, H.Orderly (H x) := by
  rw [Declared.specificFirst_iff h, lineage, List.forall_mem_cons]

end Class

end HostBridge.Host
