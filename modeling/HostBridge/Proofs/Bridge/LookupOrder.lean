import HostBridge.Proofs.Bridge.Cache
import HostBridge.Proofs.Host.Hierarchy

/-!
# Look-up along the ancestors

Shapes and adapters are looked up along the lineage of a class.  The first shape that is
found counts, and adapters are listed as their targets are met.  So if the ancestors are
listed with the specific ones first, then a shape is found for the most specific class that
has one, and adapters for a class come before those for its ancestors.
-/

namespace HostBridge

open Host (Hierarchy)
open Host.Class (SpecificFirst built_derive built_root)

variable {σ : Type} {H : Hierarchy} {c : Host.Class}

/-- The shape that is found is that of a class, and no class that derives from it has one. -/
theorem Classifier.exists_of_byClass (built : c.Built H) (h : SpecificFirst H c.ancestors)
    {shapes : Dict TypeId Script.Shape} {shape : Script.Shape}
    (answer : byClass shapes (.object c) = some shape) :
    ∃ x ∈ c.lineage, shapes.find? x = some shape ∧
      ∀ y ∈ c.lineage, H.Derives y x → shapes.find? y = none := by
  obtain ⟨before, x, after, split, found, none⟩ := List.findSome?_eq_some_iff.mp answer
  have here : x ∈ c.lineage := split ▸ List.mem_append_right _ (List.mem_cons_self ..)
  have order := built.specificFirst_lineage_iff.mpr h
  rw [split, SpecificFirst, List.pairwise_append, List.pairwise_cons] at order
  obtain ⟨-, ⟨later, -⟩, -⟩ := order
  refine ⟨x, here, found, fun y hy derives => ?_⟩
  rw [split, List.mem_append, List.mem_cons] at hy
  rcases hy with hy | rfl | hy
  · exact none y hy
  · exact absurd derives (built.acyclic here)
  · exact absurd derives (later y hy)

/-- No adapter is listed before one whose target derives from its own. -/
theorem pairwise_serving (built : c.Built H) (h : SpecificFirst H c.ancestors)
    (adapters : List (Adapter σ)) :
    (serving adapters c).Pairwise fun a b => ¬ H.Derives b.target.id a.target.id := by
  have target {x : TypeId} {a : Adapter σ} (ha : a ∈ adapters.filter fun a => a.target.id = x) :
      a.target.id = x := of_decide_eq_true (List.mem_filter.mp ha).2
  rw [serving, List.pairwise_flatMap]
  constructor
  · intro x hx
    refine List.pairwise_of_forall_mem_list ?_
    intro a ha b hb
    rw [target ha, target hb]
    exact built.acyclic hx
  · refine (built.specificFirst_lineage_iff.mpr h).imp ?_
    intro x y underived a ha b hb
    rwa [target ha, target hb]

namespace Bridge

/-- The ancestors of a class are listed with the specific ones first, exactly if every
further parent of a class in the lineage is an ancestor already or shares no class with
the earlier ones.  Then the shape found for the class is that of the most specific class
that has one, and adapters for a class come before those for its ancestors. -/
theorem lookup_specificFirst (H : Hierarchy) (c : Host.Class) (built : c.Built H) :
    (SpecificFirst H c.ancestors ↔ ∀ x ∈ c.lineage, H.Orderly (H x)) ∧
    (SpecificFirst H c.ancestors →
      (∀ shapes shape, Classifier.byClass shapes (.object c) = some shape →
        ∃ x ∈ c.lineage, shapes.find? x = some shape ∧
          ∀ y ∈ c.lineage, H.Derives y x → shapes.find? y = none) ∧
      ∀ (setup : Setup) (host : σ) (ops : List (Operation σ)),
        (((Session.start setup host).run ops).bridge.catalogue.adaptersFor c).Pairwise
          fun a b => ¬ H.Derives b.target.id a.target.id) := by
  refine ⟨built.specificFirst_iff, fun order => ⟨fun shapes shape answer => ?_, ?_⟩⟩
  · exact Classifier.exists_of_byClass built order answer
  · intro setup host ops
    have faithful : Faithful setup _ ((Session.start setup host).run ops).bridge :=
      (faithful_new setup).run ops
    rw [faithful.numbered.adaptersFor]
    exact pairwise_serving built order _

/-! ### Instruments -/

abbrev instrument : Host.Class := .root "Instrument"

abbrev keyboard : Host.Class := (Host.Class.root "Keyboard").derive [instrument]

abbrev wind : Host.Class := (Host.Class.root "Wind").derive [instrument]

abbrev furniture : Host.Class := .root "Furniture"

/-- A piano is a keyboard, and a piece of furniture. -/
abbrev piano : Host.Class := (Host.Class.root "Piano").derive [keyboard, instrument, furniture]

/-- An organ is a keyboard and a wind instrument. -/
abbrev organ : Host.Class := (Host.Class.root "Organ").derive [keyboard, wind]

/-- The parents of these classes. -/
def instruments : Hierarchy := fun x =>
  if x = keyboard.id then [instrument.id]
  else if x = wind.id then [instrument.id]
  else if x = piano.id then [keyboard.id, instrument.id, furniture.id]
  else if x = organ.id then [keyboard.id, wind.id]
  else []

/-- The parents of each class.  The identities are computed here once. -/
theorem instruments_parents :
    (instruments instrument.id = [] ∧ instruments furniture.id = []) ∧
      instruments keyboard.id = [instrument.id] ∧ instruments wind.id = [instrument.id] ∧
      instruments piano.id = [keyboard.id, instrument.id, furniture.id] ∧
      instruments organ.id = [keyboard.id, wind.id] := by
  decide +kernel

theorem built_instrument : instrument.Built instruments := built_root instruments_parents.1.1

theorem built_furniture : furniture.Built instruments := built_root instruments_parents.1.2

theorem built_keyboard : keyboard.Built instruments :=
  built_derive instruments_parents.2.1 (List.forall_mem_singleton.mpr built_instrument)

theorem built_wind : wind.Built instruments :=
  built_derive instruments_parents.2.2.1 (List.forall_mem_singleton.mpr built_instrument)

theorem built_piano : piano.Built instruments := by
  refine built_derive instruments_parents.2.2.2.1 ?_
  refine List.forall_mem_cons.mpr ⟨built_keyboard, List.forall_mem_cons.mpr ⟨?_, ?_⟩⟩
  · exact built_instrument
  · exact List.forall_mem_singleton.mpr built_furniture

theorem built_organ : organ.Built instruments := by
  refine built_derive instruments_parents.2.2.2.2 ?_
  exact List.forall_mem_cons.mpr ⟨built_keyboard, List.forall_mem_singleton.mpr built_wind⟩

/-- An adapter for instruments is registered before adapters for two kinds of them. -/
def instrumentOperations : List (Operation Unit) :=
  [instrument, keyboard, wind].map fun c =>
    .register { name := c.name, target := c, kind := .composed }

/-- The order for pianos is right: of their parents, one is an ancestor already and one has
no ancestors in common with the others. -/
theorem lookup_specificFirst_piano :
    let catalogue := ((Session.start Setup.initial ()).run instrumentOperations).bridge.catalogue
    piano.Built instruments ∧ SpecificFirst instruments piano.ancestors ∧
    (∀ x ∈ piano.lineage, instruments.Orderly (instruments x)) ∧
    (catalogue.adaptersFor piano).map Adapter.name = ["Keyboard", "Instrument"] ∧
    (catalogue.adaptersFor piano).Pairwise fun a b =>
      ¬ instruments.Derives b.target.id a.target.id := by
  have order : SpecificFirst instruments piano.ancestors := by
    have plain {c : Host.Class} {x : TypeId} (h : c.Built instruments) (hx : x ∉ c.ancestors) :
        ¬ instruments.Derives c.id x := fun derives => hx (h.mem_ancestors_iff.mpr derives)
    have listed : piano.ancestors = [keyboard.id, instrument.id, furniture.id] := by
      decide +kernel
    rw [listed]
    refine .cons ?_ (.cons ?_ (.cons (List.forall_mem_nil _) .nil))
    · refine List.forall_mem_cons.mpr ⟨plain built_instrument (List.not_mem_nil), ?_⟩
      exact List.forall_mem_singleton.mpr (plain built_furniture (List.not_mem_nil))
    · exact List.forall_mem_singleton.mpr (plain built_furniture (List.not_mem_nil))
  have lookup := lookup_specificFirst (σ := Unit) instruments piano built_piano
  exact ⟨built_piano, order, lookup.1.mp order, by decide +kernel,
    (lookup.2 order).2 Setup.initial () instrumentOperations⟩

/-- The order for organs is wrong: what makes them instruments is listed before wind
instruments. -/
theorem not_lookup_specificFirst :
    let catalogue := ((Session.start Setup.initial ()).run instrumentOperations).bridge.catalogue
    let shapes := Dict.ofList [
      (instrument.id, Script.Shape.tag .table), (wind.id, Script.Shape.tag .number)]
    (∀ x, ¬ instruments.Derives x x) ∧ organ.Built instruments ∧
    instruments.Derives wind.id instrument.id ∧
    ¬ SpecificFirst instruments organ.ancestors ∧
    (Classifier.byClass shapes (.object organ)).map Script.Shape.toTag = some .table ∧
    (catalogue.adaptersFor organ).map Adapter.name = ["Keyboard", "Instrument", "Wind"] := by
  have listed : organ.ancestors = [keyboard.id, instrument.id, wind.id] := by decide +kernel
  have derives : instruments.Derives wind.id instrument.id := .single (by decide +kernel)
  refine ⟨fun x loop => ?_, built_organ, derives, fun order => ?_, by decide +kernel,
    by decide +kernel⟩
  · have lineages : x ∈ piano.lineage ++ organ.lineage := by
      have all : ∀ y ∈ [keyboard.id, wind.id, piano.id, organ.id],
          y ∈ piano.lineage ++ organ.lineage := by decide +kernel
      refine all x ?_
      by_contra other
      obtain ⟨y, hy, -⟩ := Relation.TransGen.head'_iff.mp loop
      have parentless : instruments x = [] := by
        simp only [List.mem_cons, List.not_mem_nil, or_false, not_or] at other
        simp only [instruments, other, if_false]
      rw [parentless] at hy
      cases hy
    rcases List.mem_append.mp lineages with here | here
    · exact built_piano.acyclic here loop
    · exact built_organ.acyclic here loop
  · rw [listed] at order
    obtain ⟨-, order⟩ := List.pairwise_cons.mp order
    exact (List.pairwise_cons.mp order).1 wind.id (List.mem_singleton_self _) derives

end Bridge

end HostBridge
