import HostBridge.Proofs.Declaration.Shapes
import HostBridge.Proofs.Declaration.Substitution

/-!
# Signatures with a target

A method on a target takes the target by position and then required arguments without tags
(`Signature.OnTarget`).  Nothing can be wrong with such parameters but their types
(`grammatical_iff`), and the declaration takes the target and the arguments in their order,
at the indices from one on.
-/

namespace HostBridge

/-- The parameters are the target and then required arguments without tags. -/
structure Signature.OnTarget (s : Signature) (target : Host.Class) (rest : List Param) :
    Prop where
  params_eq : s.params = { ty := .object target, role := .positional } :: rest
  required : ∀ p ∈ rest, p.block = .required
  untagged : ∀ p ∈ rest, p.Untagged

theorem Param.role_of_required {p : Param} (h : p.block = .required) :
    p.role.supply = .script ∧ p.presence = .required := by
  obtain ⟨ty, role, optional, variadic⟩ := p
  cases role <;> cases optional <;> cases variadic <;> first | exact ⟨rfl, rfl⟩ | cases h

theorem Param.untagged_argument (name : String) (ty : Host.Ty) (description : String) :
    (Param.argument name ty description).Untagged := by
  intro _ _ tag h
  cases h
  rfl

namespace Signature.OnTarget

variable {s : Signature} {target : Host.Class} {rest : List Param} {bindings : Host.Bindings}

theorem forall_untagged (h : s.OnTarget target rest) : ∀ p ∈ s.params, p.Untagged := by
  rw [h.params_eq]
  exact List.forall_mem_cons.mpr ⟨nofun, h.untagged⟩

/-- Only types can be wrong with such parameters. -/
theorem grammatical_iff (h : s.OnTarget target rest) :
    s.Grammatical bindings ↔ (∀ p ∈ rest, p.ty.Resolves bindings) ∧
      ∃ ty, s.returns.resolve bindings = .ok ty ∧ s.ResultFits ty := by
  have types : (∀ p ∈ s.params, ∃ ty, p.ty.resolve bindings = .ok ty) ↔
      ∀ p ∈ rest, p.ty.Resolves bindings := by
    rw [h.params_eq, List.forall_mem_cons]
    exact and_iff_right ⟨_, rfl⟩
  constructor
  · intro grammatical
    exact ⟨types.mp grammatical.types, grammatical.result⟩
  · rintro ⟨resolve, result⟩
    have ordered : Ordered s.params := by
      rw [h.params_eq]
      refine List.pairwise_cons.mpr ⟨fun p hp => ?_, ?_⟩
      · rw [h.required p hp]
        exact Block.precedes_of_lt (Nat.zero_lt_succ 1)
      · exact ordered_of_forall_eq h.required (Block.precedes_self (by simp) rfl)
    have placed : ∀ p ∈ s.params, p.block ≠ .misplaced ∧ p.block ≠ .variadic := by
      rw [h.params_eq]
      refine List.forall_mem_cons.mpr ⟨⟨nofun, nofun⟩, fun p hp => ?_⟩
      rw [h.required p hp]
      exact ⟨nofun, nofun⟩
    obtain ⟨arranged, names⟩ :=
      (arranged_iff s.params).mpr ⟨fun p hp => (placed p hp).1, ordered⟩
    refine ⟨types.mpr resolve, arranged, fun p hp variadic => ?_, names, result⟩
    exact absurd variadic (placed p hp).2

/-- The parameters that each party supplies. -/
theorem suppliedBy_eq (h : s.OnTarget target rest) :
    suppliedBy .position s.params = [({ ty := .object target, role := .positional }, 0)] ∧
      suppliedBy .name s.params = [] ∧ suppliedBy .script s.params = rest.zipIdx 1 := by
  have script : ∀ p ∈ rest.zipIdx 1, p.1.role.supply = .script := by
    intro p hp
    exact (Param.role_of_required (h.required _ (List.fst_mem_of_mem_zipIdx hp))).1
  have others (supply : Supply) (other : Supply.script ≠ supply) :
      ((rest.zipIdx 1).filter fun p => p.1.role.supply = supply) = [] := by
    refine List.filter_eq_nil_iff.mpr fun p hp => ?_
    rw [script p hp, decide_eq_true_eq]
    exact other
  have own : ((rest.zipIdx 1).filter fun p => p.1.role.supply = .script) = rest.zipIdx 1 :=
    List.filter_eq_self.mpr fun p hp => decide_eq_true (script p hp)
  rw [h.params_eq]
  refine ⟨?_, others .name (by decide), own⟩
  exact congrArg (List.cons _) (others .position (by decide))

end Signature.OnTarget

namespace Declaration

variable {d : Declaration} {s : Signature} {target : Host.Class} {rest : List Param}
  {bindings : Host.Bindings} {source : String}

theorem Reflects.positional_of_onTarget (h : d.Reflects s bindings source)
    (on : s.OnTarget target rest) : d.positional = [.object target] := by
  have fits := h.positional
  rw [on.suppliedBy_eq.1, List.forall₂_cons_left_iff] at fits
  obtain ⟨ty, rest, fit, none, same⟩ := fits
  rw [List.forall₂_nil_left_iff] at none
  have resolved := fit.resolve_eq
  cases resolved
  rw [same, none]

theorem Reflects.env_of_onTarget (h : d.Reflects s bindings source)
    (on : s.OnTarget target rest) : d.env = [] := by
  have fits := h.env
  rw [on.suppliedBy_eq.2.1] at fits
  exact List.forall₂_nil_left_iff.mp fits

theorem Reflects.arguments_of_onTarget (h : d.Reflects s bindings source)
    (on : s.OnTarget target rest) :
    List.Forall₂ (fun p a => Fits bindings p.1 p.2 (.argument a)) (rest.zipIdx 1) d.arguments :=
  on.suppliedBy_eq.2.2 ▸ h.arguments

end Declaration

/-! ## Required arguments -/

/-- The argument is what a required parameter of the name and type became. -/
structure Argument.Takes (a : Argument) (bindings : Host.Bindings) (name : String) (ty : Host.Ty)
    (index : Nat) : Prop where
  name_eq : a.name = name
  resolved : ty.resolve bindings = .ok a.ty
  index_eq : a.index = index
  required : a.presence = .required

theorem Argument.takes_of_fits {a : Argument} {bindings : Host.Bindings} {name description : String}
    {ty : Host.Ty} {index : Nat}
    (h : Fits bindings (.argument name ty description) index (.argument a)) :
    a.Takes bindings name ty index ∧ a.description = description := by
  cases h with
  | argument hr ht hi hp hs ha =>
      cases hr
      exact ⟨⟨rfl, ht, hi, hp⟩, rfl⟩

/-- Arguments that parameters of one kind became are the same if they are shown alike. -/
theorem Argument.Takes.eq {a a' : Argument} {c : Classification} {bindings : Host.Bindings}
    {name : String} {ty : Host.Ty} {index : Nat} (h : a.Takes bindings name ty index)
    (h' : a'.Takes bindings name ty index) (description : a'.description = a.description)
    (shown : a.ShownBy c) (shown' : a'.ShownBy c) : a' = a := by
  have same : a'.ty = a.ty := Except.ok.inj (h'.resolved.symm.trans h.resolved)
  have presence := h'.required.trans h.required.symm
  have shape := shown.shape_eq shown' same presence
  cases a
  cases a'
  cases h.name_eq
  cases h.index_eq
  cases h'.name_eq
  cases h'.index_eq
  cases same
  cases presence
  cases shape
  cases description
  rfl

end HostBridge
