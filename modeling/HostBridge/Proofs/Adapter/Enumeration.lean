import HostBridge.Proofs.Adapter.Instantiation
import HostBridge.Proofs.Declaration.Shapes

/-!
# The methods of a definition

A definition has the methods given by its author and then the accessors of its properties, if
its methods can be found at all (`specs_of_ok`, `specs_of_error`).  The accessors are made one
property after the other, and the tags of those that read are found on the way
(`accessors_of_generate`).
-/

namespace HostBridge

variable {σ : Type}

/-! ## Accessors of a property -/

namespace Property

variable {p : Property σ}

/-- The specification of the reading accessor. -/
def getterSpec (p : Property σ) (target : Host.Class) (tag : Script.ResultTag) : MethodSpec σ where
  signature := p.getterSignature target tag
  function := p.getter
  group := p.group
  ofProperty := true

/-- The specification of the writing accessor. -/
def setterSpec (p : Property σ) (target : Host.Class) (setter : HostFunction σ) :
    MethodSpec σ where
  signature := p.setterSignature target
  function := setter
  group := p.group
  ofProperty := true

theorem accessors_of_none (h : p.setter = none) (target : Host.Class) (tag : Script.ResultTag) :
    p.accessors target tag = [p.getterSpec target tag] := by
  rw [accessors, h]
  rfl

theorem accessors_of_some {setter : HostFunction σ} (h : p.setter = some setter)
    (target : Host.Class) (tag : Script.ResultTag) :
    p.accessors target tag = [p.getterSpec target tag, p.setterSpec target setter] := by
  rw [accessors, h]
  rfl

theorem ofProperty_of_mem_accessors (p : Property σ) (target : Host.Class)
    (tag : Script.ResultTag) : ∀ spec ∈ p.accessors target tag, spec.ofProperty = true := by
  cases hs : p.setter with
  | none =>
      rw [accessors_of_none hs]
      exact List.forall_mem_singleton.mpr rfl
  | some setter =>
      rw [accessors_of_some hs]
      exact List.forall_mem_cons.mpr ⟨rfl, List.forall_mem_singleton.mpr rfl⟩

theorem keeps_resultTag (p : Property σ) (bindings : Host.Bindings) (c : Classification) :
    c.Keeps (p.resultTag bindings c).2 := by
  rw [resultTag]
  cases p.ty.resolve bindings with
  | error e => exact Std.Refl.refl c
  | ok ty => exact Classification.keeps_classify ty c

theorem keeps_methodSpecs (p : Property σ) (target : Host.Class)
    (bindings : Host.Bindings) (c : Classification) :
    c.Keeps (p.methodSpecs target bindings c).2 := by
  rw [methodSpecs_eq]
  exact p.keeps_resultTag bindings c

end Property

/-! ## All methods -/

namespace Adapter.Definition

variable {d : Definition σ}

/-- Make the accessors of the properties, a list for each. -/
def generate (d : Definition σ) : StateM Classification (List (List (MethodSpec σ))) :=
  d.properties.mapM fun p => p.methodSpecs d.target d.bindings

theorem run_enumerate {found : List (MethodSpec σ)} (h : d.provider.getD (.ok []) = .ok found)
    (c : Classification) :
    d.enumerate.run c =
      (.ok (d.methods ++ found ++ (d.generate c).1.flatten), (d.generate c).2) := by
  rw [enumerate, run_bind, h]
  show (_ >>= _ : ExceptT _ (StateM Classification) _).run c = _
  rw [run_bind, run_mapM_monadLift]
  rfl

theorem specs_of_error {reason : String} (h : d.provider.getD (.ok []) = .error reason)
    (s : Setup) : (d.specs s).1 = [] := by
  have failed : d.enumerate.run s.classification = (.error reason, s.classification) := by
    rw [enumerate, h]
    rfl
  rw [specs_eq, failed]

theorem specs_of_ok {found : List (MethodSpec σ)} (h : d.provider.getD (.ok []) = .ok found)
    (s : Setup) :
    d.specs s =
      (d.methods ++ found ++ (d.generate s.classification).1.flatten,
        { s with classification := (d.generate s.classification).2 }) := by
  rw [specs_eq, run_enumerate h]

/-- The accessors of a property have the tag found for it, and what was found is kept. -/
theorem accessors_of_generate (d : Definition σ) (c : Classification) :
    List.Forall₂ (fun p group => ∃ c', group = p.accessors d.target (p.resultTag d.bindings c').1 ∧
      (p.resultTag d.bindings c').2.Keeps (d.generate c).2) d.properties (d.generate c).1 := by
  have answers :=
    (forall₂_mapM (fun p => p.keeps_methodSpecs d.target d.bindings) d.properties c).2
  exact answers.imp fun p group ⟨c', made, kept⟩ => ⟨c', by
    rw [Property.methodSpecs_eq] at made kept
    exact ⟨made, kept⟩⟩

/-- Accessors are marked as such. -/
theorem ofProperty_of_mem_generate (d : Definition σ) (c : Classification) :
    ∀ spec ∈ (d.generate c).1.flatten, spec.ofProperty = true := by
  refine forall_mem_flatten_iff.mpr fun group hg => ?_
  obtain ⟨p, -, c', rfl, -⟩ := exists_mem_of_forall₂ (d.accessors_of_generate c) hg
  exact p.ofProperty_of_mem_accessors d.target _

end Adapter.Definition

end HostBridge
