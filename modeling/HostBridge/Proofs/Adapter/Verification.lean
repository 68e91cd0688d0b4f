import HostBridge.Proofs.Agreement
import HostBridge.Proofs.Adapter.Building

/-!
# What wrapping verifies

A method is wrapped only if the host can run it: by position it takes what the kind of
the adapter supplies, and by name what the setup supplies.  So every method of a built
adapter has passed the check of its kind against the target of the adapter.
-/

namespace HostBridge

/-! ## Values by position -/

namespace Declaration

theorem firstRefusal_eq_none_iff {expected got : List Host.Ty} {index : Nat}
    (h : expected.length = got.length) :
    firstRefusal index expected got = none ↔
      List.Forall₂ (fun e g => e.accepts g = true) expected got := by
  induction expected generalizing index got with
  | nil =>
      rw [List.length_eq_zero_iff.mp h.symm]
      simp [firstRefusal]
  | cons e es ih =>
      cases got with
      | nil => cases h
      | cons g gs =>
          rw [firstRefusal, List.forall₂_cons]
          cases e.accepts g with
          | true => simp [ih (Nat.succ.inj h)]
          | false => simp

/-- The values by position are right if there are as many as expected, and each is
accepted at its place. -/
theorem checkPositional_eq_ok_iff {d : Declaration} {provided : List Host.Ty} :
    d.checkPositional provided = .ok () ↔
      List.Forall₂ (fun e g => e.accepts g = true) d.positional provided := by
  rw [checkPositional]
  by_cases h : provided.length = d.positional.length
  · rw [if_neg (not_not_intro h), ← firstRefusal_eq_none_iff h.symm]
    cases firstRefusal 0 d.positional provided <;> simp
  · rw [if_pos h]
    constructor
    · intro impossible
      cases impossible
    · intro related
      exact absurd related.length_eq.symm h

/-- By position the method takes nothing if it belongs to the table itself.  Otherwise it
takes one value, which may be an object of the class. -/
def CallableOn (d : Declaration) (c : Host.Class) : Adapter.Kind → Prop
  | .composed => d.positional = []
  | _ => ∃ ty, d.positional = [ty] ∧ ty.accepts (.object c) = true

theorem callableOn_iff {d : Declaration} {c : Host.Class} {kind : Adapter.Kind} :
    d.CallableOn c kind ↔ d.checkPositional (kind.positionalTypes c) = .ok () := by
  rw [checkPositional_eq_ok_iff]
  cases kind <;> simp [CallableOn, Adapter.Kind.positionalTypes, List.forall₂_cons_right_iff,
    and_comm]

/-! ## Values by name -/

/-- The values by name are right if there is one for every parameter, which accepts it. -/
theorem checkEnv_eq_ok_iff {d : Declaration} {provided : EnvTypes} :
    d.checkEnv provided = .ok () ↔
      ∀ p ∈ d.env, ∃ got, provided.find? p.name = some got ∧ p.ty.accepts got = true := by
  have fault (p : EnvParam) : envFault? provided p = none ↔
      ∃ got, provided.find? p.name = some got ∧ p.ty.accepts got = true := by
    rw [envFault?]
    cases provided.find? p.name <;> simp
  simp only [← fault]
  rw [checkEnv, ← List.findSome?_eq_none_iff]
  cases d.env.findSome? (envFault? provided) <;> simp

end Declaration

/-! ## Both -/

namespace Adapter.Kind

variable {kind : Kind} {d : Declaration} {target : Host.Class} {provided : EnvTypes}

theorem verify_eq_ok_iff :
    kind.verify d target provided = .ok () ↔
      d.CallableOn target kind ∧ d.checkEnv provided = .ok () := by
  rw [Declaration.callableOn_iff, verify]
  cases d.checkPositional (kind.positionalTypes target) <;> simp [bind, Except.bind]

/-- A method that fits a host takes no more than the target by position. -/
theorem length_positional_le (h : kind.verify d target provided = .ok ()) :
    d.positional.length ≤ 1 := by
  have callable := (verify_eq_ok_iff.mp h).1
  cases kind with
  | composed =>
      rw [show d.positional = [] from callable]
      exact Nat.zero_le 1
  | peripheral =>
      obtain ⟨ty, one, -⟩ := callable
      rw [one]
      exact Nat.le_refl 1
  | property =>
      obtain ⟨ty, one, -⟩ := callable
      rw [one]
      exact Nat.le_refl 1

/-- It takes values by name that the host says it supplies. -/
theorem mem_keys_of_verify (h : kind.verify d target provided = .ok ()) :
    ∀ p ∈ d.env, p.name ∈ provided.keys := by
  intro p hp
  obtain ⟨got, found, -⟩ := Declaration.checkEnv_eq_ok_iff.mp (verify_eq_ok_iff.mp h).2 p hp
  rw [← Dict.contains_iff, Dict.contains, found, Option.isSome_some]

end Adapter.Kind

/-! ## Building -/

namespace Adapter.Definition

variable {σ : Type} {d : Definition σ}

theorem verified_of_declare {spec : MethodSpec σ} {s : Setup} {declaration : Declaration}
    (h : ((d.declare spec).run s).1 = .ok declaration) :
    d.kind.verify declaration d.target (s.envTypes d.kind) = .ok () := by
  obtain ⟨c, parsed⟩ := exists_parse_of_declare h
  rw [fst_run_declare d spec parsed, map_eq_ok] at h
  obtain ⟨_, verified, -⟩ := h
  exact mapError_eq_ok.mp verified

theorem verified_of_mem_wrapAll {id place : Nat} {specs : List (MethodSpec σ)} {s : Setup}
    {ms : List (Method σ)} (h : ((d.wrapAll id place specs).run s).1 = .ok ms) :
    ∀ m ∈ ms, m.composed = decide (d.kind = .composed) ∧
      d.kind.verify m.declaration d.target (s.envTypes d.kind) = .ok () := by
  induction specs generalizing place s ms with
  | nil =>
      cases h
      exact List.forall_mem_nil _
  | cons spec rest ih =>
      have moved := d.moves_wrap id place spec s
      rw [fst_run_wrapAll_cons, fst_run_wrap, bind_eq_ok] at h
      obtain ⟨first, wrapped, h⟩ := h
      obtain ⟨declaration, declared, rfl⟩ := map_eq_ok.mp wrapped
      obtain ⟨later, hl, rfl⟩ := map_eq_ok.mp h
      -- Wrapping the first method leaves what the host supplies to the others as it was.
      rw [← moved.envTypes]
      refine List.forall_mem_cons.mpr ⟨⟨rfl, ?_⟩, ih hl⟩
      rw [moved.envTypes]
      exact verified_of_declare (mapError_eq_ok.mp declared)

/-- Every method of an adapter was checked against its target. -/
theorem verified_of_mem_build {id : Nat} {s : Setup} {a : Adapter σ}
    (h : ((d.build id).run s).1 = .ok a) :
    ∀ m ∈ a.methods, m.composed = decide (a.kind = .composed) ∧
      a.kind.verify m.declaration a.target (s.envTypes a.kind) = .ok () := by
  rw [fst_run_build, map_eq_ok] at h
  obtain ⟨methods, hm, rfl⟩ := h
  rw [← (d.agrees_specs s).envTypes]
  exact verified_of_mem_wrapAll hm

end Adapter.Definition

end HostBridge
