import HostBridge.Proofs.Adapter.Verification
import HostBridge.Proofs.Host.Hierarchy

/-!
# The order of types

A type is above another if it accepts it.  On the types over a set of classes this is a
partial order, up to the equality of types, as soon as it is one on the classes.  That
takes two things (`Class.Consistent`): a class lists the ancestors of its ancestors, and
different classes are not ancestors of each other.  Classes that are declared over one
hierarchy are consistent.

`accepts` goes through its rows for one pair of types at a time.  There is one lemma for
each kind of type on the left, which says what it accepts.  A type that is none of these
kinds is rigid and accepts only itself.

A host that supplies more specific values than another can run all methods that the other
can run, since every check of a requirement asks whether a type is accepted.
-/

namespace HostBridge

namespace Host

/-! ## Consistent classes -/

/-- The classes are ordered by descent. -/
structure Class.Consistent (S : Class → Prop) : Prop where
  /-- A class of the lineage, by whatever description, brings no ancestors that are not
  listed. -/
  closed : ∀ u v, S u → S v → v.id ∈ u.lineage → v.ancestors ⊆ u.lineage
  /-- Classes that descend from each other are the same. -/
  acyclic : ∀ u v, S u → S v → u.isA v = true → v.isA u = true → u.id = v.id

variable {S : Class → Prop}

theorem Class.Consistent.isA_trans (h : Consistent S) {u v w : Class} (hu : S u) (hv : S v)
    (huv : u.isA v = true) (hvw : v.isA w = true) : u.isA w = true := by
  rw [isA_iff] at huv hvw ⊢
  rcases List.mem_cons.mp hvw with same | later
  · rw [same]
    exact huv
  · exact h.closed u v hu hv huv later

/-- Classes that are declared over one hierarchy are consistent. -/
theorem Class.consistent_built (H : Hierarchy) : Consistent fun c => c.Built H := by
  constructor
  · intro u v hu hv huv x hx
    have reaches := (hu.mem_lineage_iff.mp huv).trans (hv.mem_ancestors_iff.mp hx).to_reflTransGen
    exact hu.mem_lineage_iff.mpr reaches
  · intro u v hu hv huv hvu
    have down := Hierarchy.reaches_iff.mp (hu.mem_lineage_iff.mp ((isA_iff u v).mp huv))
    have up := Hierarchy.reaches_iff.mp (hv.mem_lineage_iff.mp ((isA_iff v u).mp hvu))
    rcases down with same | down
    · exact same.symm
    · rcases up with same | up
      · exact same
      · exact absurd (down.trans up) (hu.acyclic (List.mem_cons_self ..))

/-! ## What types accept -/

namespace Ty

/-- All classes in the type are of the set. -/
def Over (S : Class → Prop) : Ty → Prop
  | .object c => S c
  | .array e => e.Over S
  | .list e => e.Over S
  | .set e => e.Over S
  | .map k v => k.Over S ∧ v.Over S
  | _ => True

/-- Nothing but the type itself is accepted where it is expected. -/
def Rigid : Ty → Prop
  | .any => False
  | .object _ => False
  | .array _ => False
  | .float => False
  | _ => True

variable {a b c t : Ty}

theorem accepts_any_iff : Ty.any.accepts t = true ↔ t ≠ .void := by
  cases t with
  | void => exact iff_of_false Bool.false_ne_true fun other => other rfl
  | _ => exact iff_of_true rfl nofun

theorem accepts_object_iff {x : Class} :
    (Ty.object x).accepts t = true ↔ ∃ y, t = .object y ∧ y.isA x = true := by
  constructor
  · intro h
    cases t with
    | object y => exact ⟨y, rfl, h⟩
    | _ => cases h
  · rintro ⟨y, rfl, h⟩
    exact h

theorem accepts_array_iff {e : Ty} :
    (Ty.array e).accepts t = true ↔ ∃ e', t = .array e' ∧ e.accepts e' = true := by
  constructor
  · intro h
    cases t with
    | array e' => exact ⟨e', rfl, h⟩
    | _ => cases h
  · rintro ⟨e', rfl, h⟩
    exact h

theorem accepts_float_iff : Ty.float.accepts t = true ↔ t = .float ∨ t = .integer := by
  constructor
  · intro h
    cases t with
    | float => exact .inl rfl
    | integer => exact .inr rfl
    | _ => cases h
  · rintro (rfl | rfl) <;> rfl

theorem accepts_of_rigid (h : a.Rigid) (t : Ty) : a.accepts t = a.equal t := by
  cases a <;> first | exact h.elim | cases t <;> rfl

theorem Rigid.of_equal (h : a.Rigid) (hab : a.equal b = true) : b.Rigid := by
  cases a <;> first | exact h.elim | (cases b <;> trivial)

theorem eq_void_of_accepts_void (h : t.accepts .void = true) : t = .void := by
  cases t <;> first | rfl | cases h

theorem eq_any_of_accepts_any (h : t.accepts .any = true) : t = .any := by
  cases t <;> first | rfl | cases h

/-! ## The order -/

theorem accepts_self (t : Ty) : t.accepts t = true := by
  induction t with
  | any => rfl
  | object c => exact accepts_object_iff.mpr ⟨c, rfl, c.isA_self⟩
  | array e ih => exact accepts_array_iff.mpr ⟨e, rfl, ih⟩
  | float => rfl
  | _ => exact (accepts_of_rigid (by trivial) _).trans (equal_self _)

theorem accepts_trans (h : Class.Consistent S) (hb : b.Over S) (hc : c.Over S)
    (hab : a.accepts b = true) (hbc : b.accepts c = true) : a.accepts c = true := by
  induction a generalizing b c with
  | any =>
      refine accepts_any_iff.mpr fun nothing => ?_
      rw [nothing] at hbc
      exact accepts_any_iff.mp hab (eq_void_of_accepts_void hbc)
  | object x =>
      obtain ⟨y, rfl, hy⟩ := accepts_object_iff.mp hab
      obtain ⟨z, rfl, hz⟩ := accepts_object_iff.mp hbc
      exact accepts_object_iff.mpr ⟨z, rfl, h.isA_trans hc hb hz hy⟩
  | array e ih =>
      obtain ⟨e', rfl, he'⟩ := accepts_array_iff.mp hab
      obtain ⟨e'', rfl, he''⟩ := accepts_array_iff.mp hbc
      exact accepts_array_iff.mpr ⟨e'', rfl, ih (b := e') hb hc he' he''⟩
  | float =>
      rcases accepts_float_iff.mp hab with rfl | rfl
      · exact hbc
      · -- An integer accepts nothing but integers.
        cases c <;> first | rfl | cases hbc
  | _ =>
      rw [accepts_of_rigid (by trivial)] at hab ⊢
      rw [accepts_of_rigid (Rigid.of_equal (by trivial) hab)] at hbc
      exact equal_trans hab hbc

theorem equal_of_accepts (h : Class.Consistent S) (ha : a.Over S) (hb : b.Over S)
    (hab : a.accepts b = true) (hba : b.accepts a = true) : a.equal b = true := by
  induction a generalizing b with
  | any =>
      cases eq_any_of_accepts_any hba
      rfl
  | object x =>
      obtain ⟨y, rfl, hy⟩ := accepts_object_iff.mp hab
      obtain ⟨z, same, hz⟩ := accepts_object_iff.mp hba
      cases same
      exact beq_iff_eq.mpr (h.acyclic x y ha hb hz hy)
  | array e ih =>
      obtain ⟨e', rfl, he'⟩ := accepts_array_iff.mp hab
      obtain ⟨e'', same, he''⟩ := accepts_array_iff.mp hba
      cases same
      exact ih (b := e') ha hb he' he''
  | float =>
      rcases accepts_float_iff.mp hab with rfl | rfl
      · rfl
      · cases hba
  | _ =>
      rw [accepts_of_rigid (by trivial)] at hab
      exact hab

end Ty

end Host

/-! ## Checks of requirements -/

namespace Declaration

open Host (Ty)
open Host.Class (Consistent)

variable {S : Host.Class → Prop} {d : Declaration}

/-- More specific values may be supplied by position. -/
theorem checkPositional_of_specific (h : Consistent S) {provided specific : List Ty}
    (hp : ∀ t ∈ provided, t.Over S) (hs : ∀ t ∈ specific, t.Over S)
    (narrower : List.Forall₂ (fun p s => p.accepts s = true) provided specific)
    (ok : d.checkPositional provided = .ok ()) : d.checkPositional specific = .ok () := by
  rw [checkPositional_eq_ok_iff] at ok ⊢
  generalize d.positional = expected at ok ⊢
  induction narrower generalizing expected with
  | nil => exact ok
  | cons hps _ ih =>
      obtain ⟨hp, hps'⟩ := List.forall_mem_cons.mp hp
      obtain ⟨hs, hss'⟩ := List.forall_mem_cons.mp hs
      cases ok with
      | cons first rest => exact .cons (Ty.accepts_trans h hp hs first hps) (ih hps' hss' _ rest)

/-- More specific values may be supplied by name, and more of them. -/
theorem checkEnv_of_specific (h : Consistent S) {provided specific : EnvTypes}
    (hp : ∀ name t, provided.find? name = some t → t.Over S)
    (hs : ∀ name t, specific.find? name = some t → t.Over S)
    (narrower : ∀ name p, provided.find? name = some p →
      ∃ s, specific.find? name = some s ∧ p.accepts s = true)
    (ok : d.checkEnv provided = .ok ()) : d.checkEnv specific = .ok () := by
  rw [checkEnv_eq_ok_iff] at ok ⊢
  intro param hparam
  obtain ⟨p, found, accepted⟩ := ok param hparam
  obtain ⟨s, found', narrow⟩ := narrower _ p found
  exact ⟨s, found', Ty.accepts_trans h (hp _ p found) (hs _ s found') accepted narrow⟩

end Declaration

namespace Host

open HostBridge.Host.Class (Consistent)

/-- What it means that types over the classes are ordered by what they accept. -/
structure Ty.Ordered (S : Class → Prop) : Prop where
  refl : ∀ t : Ty, t.Over S → t.accepts t = true
  trans : ∀ a b c : Ty, a.Over S → b.Over S → c.Over S → a.accepts b = true →
    b.accepts c = true → a.accepts c = true
  antisymm : ∀ a b : Ty, a.Over S → b.Over S → a.accepts b = true → b.accepts a = true →
    a.equal b = true
  /-- A method that takes some values by position takes more specific ones. -/
  positional : ∀ (d : Declaration) (provided specific : List Ty),
    (∀ t ∈ d.positional, t.Over S) → (∀ t ∈ provided, t.Over S) → (∀ t ∈ specific, t.Over S) →
    List.Forall₂ (fun p s => p.accepts s = true) provided specific →
    d.checkPositional provided = .ok () → d.checkPositional specific = .ok ()
  /-- A method that takes some values by name takes more specific ones. -/
  named : ∀ (d : Declaration) (provided specific : EnvTypes),
    (∀ p ∈ d.env, p.ty.Over S) → (∀ name t, provided.find? name = some t → t.Over S) →
    (∀ name t, specific.find? name = some t → t.Over S) →
    (∀ name p, provided.find? name = some p →
      ∃ s, specific.find? name = some s ∧ p.accepts s = true) →
    d.checkEnv provided = .ok () → d.checkEnv specific = .ok ()

/-- Types over consistent classes are ordered, and checks of requirements follow the order.
Classes come to be consistent as they are made: whatever parents a class is given, one by
one or all at once, it lists each of them with all its ancestors, and nothing twice. -/
theorem types_ordered {S : Class → Prop} (h : Consistent S) :
    Ty.Ordered S ∧
    (∀ (c : Class) (parents : List Class), c.Assembled →
      (c.derive parents).ancestors.Nodup ∧
        ∀ p ∈ parents, p.id ∈ (c.derive parents).ancestors ∧
          p.ancestors ⊆ (c.derive parents).ancestors) ∧
    (∀ c p : Class, c.deriveFrom p = c.derive [p]) ∧
    (∀ c a b : Class, ((c.deriveFrom a).deriveFrom b).ancestors = (c.derive [a, b]).ancestors) ∧
    (∀ H : Hierarchy, Consistent fun c => c.Built H) := by
  refine ⟨?_, ?_, fun _ _ => rfl, ?_, Class.consistent_built⟩
  · exact {
      refl := fun t _ => t.accepts_self
      trans := fun a b c _ hb hc => Ty.accepts_trans h hb hc
      antisymm := fun a b => Ty.equal_of_accepts h
      positional := fun d _ _ _ hp hs => d.checkPositional_of_specific h hp hs
      named := fun d _ _ _ hp hs => d.checkEnv_of_specific h hp hs }
  · intro c parents hc
    constructor
    · exact Class.nodup_foldl_addNew hc.nodup_ancestors
    · intro p hp
      exact List.cons_subset.mp (Class.lineage_subset_derive hp)
  · intro c a b
    rw [Class.derive_cons]
    rfl

def vehicle : Class := .root "Vehicle"

def tram : Class := (Class.root "Tram").deriveFrom vehicle

/-- A tram that is heated as well. -/
def nightTram : Class := (Class.root "NightTram").derive [tram, .root "Heater"]

/-- Several objects of a class. -/
def fleet (c : Class) : Ty := .array (.object c)

/-- A method that takes a fleet of vehicles by position. -/
def parking : Declaration where
  name := "park"
  description := ""
  source := "depot"
  aliases := []
  positional := [fleet vehicle]
  env := []
  arguments := []
  returns := .void
  resultTags := []
  multiple := false

/-- The method takes a fleet of trams, and so a fleet of night trams. -/
theorem types_ordered_trams :
    let S := (· ∈ [vehicle, tram, nightTram])
    Consistent S ∧
    parking.checkPositional [fleet tram] = .ok () ∧
    parking.checkPositional [fleet nightTram] = .ok () ∧
    (fleet vehicle).accepts (fleet nightTram) = true ∧
    (fleet nightTram).accepts (fleet vehicle) = false := by
  intro S
  have consistent : Consistent S := by
    constructor
    · have closed : ∀ u ∈ [vehicle, tram, nightTram], ∀ v ∈ [vehicle, tram, nightTram],
          v.id ∈ u.lineage → v.ancestors ⊆ u.lineage := by decide +kernel
      exact fun u v hu hv => closed u hu v hv
    · have acyclic : ∀ u ∈ [vehicle, tram, nightTram], ∀ v ∈ [vehicle, tram, nightTram],
          u.isA v = true → v.isA u = true → u.id = v.id := by decide +kernel
      exact fun u v hu hv => acyclic u hu v hv
  have ordered := (types_ordered consistent).1
  have hv : (fleet vehicle).Over S := List.mem_cons_self ..
  have ht : (fleet tram).Over S := List.mem_cons_of_mem _ (List.mem_cons_self ..)
  have hn : (fleet nightTram).Over S :=
    List.mem_cons_of_mem _ (List.mem_cons_of_mem _ (List.mem_cons_self ..))
  have trams : (fleet vehicle).accepts (fleet tram) = true := by decide +kernel
  have heated : (fleet tram).accepts (fleet nightTram) = true := by decide +kernel
  have accepted : parking.checkPositional [fleet tram] = .ok () :=
    Declaration.checkPositional_eq_ok_iff.mpr (.cons trams .nil)
  refine ⟨consistent, accepted, ?_, ?_, by decide +kernel⟩
  · exact ordered.positional parking _ _ (List.forall_mem_singleton.mpr hv)
      (List.forall_mem_singleton.mpr ht) (List.forall_mem_singleton.mpr hn)
      (.cons heated .nil) accepted
  · exact ordered.trans _ _ _ hv ht hn trams heated

end Host

end HostBridge
