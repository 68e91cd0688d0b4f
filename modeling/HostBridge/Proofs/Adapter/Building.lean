import HostBridge.Adapter
import HostBridge.Proofs.Running

/-!
# Answers of building adapters

An adapter is built in stages, and each leaves traces in the setup.  The statements
here leave the traces aside and say what each stage answers in terms of the stage
before.  To wrap a method is to understand it and to add what the definition says
about all its methods.
-/

namespace HostBridge.Adapter.Definition

variable {σ : Type}

/-- A signature that the classification understands is checked against the host. -/
theorem fst_run_declare (d : Definition σ) (spec : MethodSpec σ) {s : Setup}
    {declaration : Declaration} {c : Classification}
    (h : (Declaration.parse spec.signature d.bindings d.sourceTag).run s.classification =
      (.ok declaration, c)) :
    ((d.declare spec).run s).1 =
      ((d.kind.verify declaration d.target (s.envTypes d.kind)).mapError
        WrapCause.requirement).map fun _ => declaration := by
  have parsed : Setup.classifying (Declaration.parse spec.signature d.bindings d.sourceTag) s =
      (.ok declaration, { s with classification := c }) := by
    rw [Setup.classifying, show Declaration.parse _ _ _ s.classification = _ from h]
  rw [declare, fst_run_bind, run_adapt, run_mk, parsed]
  show ((_ >>= _ : ExceptT _ (StateM Setup) _).run _).1 = _
  rw [fst_run_bind, run_get]
  show ((_ >>= _ : ExceptT _ (StateM Setup) _).run _).1 = _
  rw [fst_run_bind, run_ofExcept]
  cases d.kind.verify declaration d.target (s.envTypes d.kind) <;> rfl

/-- A method that was declared was understood. -/
theorem exists_parse_of_declare {d : Definition σ} {spec : MethodSpec σ} {s : Setup}
    {declaration : Declaration} (h : ((d.declare spec).run s).1 = .ok declaration) :
    ∃ c, (Declaration.parse spec.signature d.bindings d.sourceTag).run s.classification =
      (.ok declaration, c) := by
  cases hp : (Declaration.parse spec.signature d.bindings d.sourceTag).run s.classification with
  | mk r c =>
      cases r with
      | error e =>
          rw [declare, fst_run_bind, run_adapt, run_mk, Setup.classifying,
            show Declaration.parse _ _ _ s.classification = _ from hp] at h
          cases h
      | ok understood =>
          rw [fst_run_declare d spec hp, map_eq_ok] at h
          obtain ⟨_, -, rfl⟩ := h
          exact ⟨c, rfl⟩

theorem fst_run_wrap (d : Definition σ) (id place : Nat) (spec : MethodSpec σ) (s : Setup) :
    ((d.wrap id place spec).run s).1 =
      (((d.declare spec).run s).1.mapError
        (RegistrationError.wrap d.name spec.signature.name)).map (d.method id place spec) := by
  rw [wrap, fst_run_bind, run_adapt]
  cases ((d.declare spec).run s).1 with
  | error e => rfl
  | ok declaration => cases d.groupOf spec <;> rfl

/-- Whether a method is wrapped, once it is understood, is for the host to say. -/
theorem fst_run_wrap_of_parse (d : Definition σ) (id place : Nat) (spec : MethodSpec σ)
    (declaration : Declaration) {s : Setup} {c : Classification}
    (h : (Declaration.parse spec.signature d.bindings d.sourceTag).run s.classification =
      (.ok declaration, c)) :
    ((d.wrap id place spec).run s).1 =
      match d.kind.verify declaration d.target (s.envTypes d.kind) with
      | .ok () => .ok (d.method id place spec declaration)
      | .error e => .error (.wrap d.name spec.signature.name (.requirement e)) := by
  rw [fst_run_wrap, fst_run_declare d spec h]
  cases d.kind.verify declaration d.target (s.envTypes d.kind) <;> rfl

theorem fst_run_wrapAll_cons (d : Definition σ) (id place : Nat) (spec : MethodSpec σ)
    (rest : List (MethodSpec σ)) (s : Setup) :
    ((d.wrapAll id place (spec :: rest)).run s).1 =
      ((d.wrap id place spec).run s).1.bind fun m =>
        ((d.wrapAll id (place + 1) rest).run ((d.wrap id place spec).run s).2).1.map (m :: ·) := by
  rw [wrapAll, fst_run_bind]
  cases ((d.wrap id place spec).run s).1 with
  | error e => rfl
  | ok m =>
      show ((_ >>= _ : ExceptT _ (StateM Setup) _).run _).1 = _
      rw [fst_run_bind]
      rfl

/-- Methods that cannot be found are none, and the reason is logged. -/
theorem specs_eq (d : Definition σ) (s : Setup) :
    d.specs s =
      match d.enumerate.run s.classification with
      | (.ok specs, c) => (specs, { s with classification := c })
      | (.error reason, c) =>
          ([], (Setup.write .error ("can't get methods of adapter '" ++ d.name ++ "' for '"
            ++ d.target.name ++ "', bailing out: " ++ enumerationMessage reason)
            { s with classification := c }).2) := by
  simp only [specs, bind, StateT.bind, Setup.classifying]
  rw [show d.enumerate s.classification = d.enumerate.run s.classification from rfl]
  rcases d.enumerate.run s.classification with ⟨_ | _, c⟩ <;> rfl

theorem fst_run_build (d : Definition σ) (id : Nat) (s : Setup) :
    ((d.build id).run s).1 =
      ((d.wrapAll id 0 (d.specs s).1).run (d.specs s).2).1.map fun methods =>
        { id, name := d.name, source := d.sourceTag, target := d.target, kind := d.kind,
          methods } := by
  rw [build, fst_run_bind, run_monadLift]
  show ((_ >>= _ : ExceptT _ (StateM Setup) _).run _).1 = _
  rw [fst_run_bind]
  cases ((d.wrapAll id 0 (d.specs s).1).run (d.specs s).2).1 <;> rfl

/-! ## Methods and their specifications -/

/-- A method is what a specification of the definition was understood as. -/
def Understands (d : Definition σ) (id : Nat) (spec : MethodSpec σ) (m : Method σ) : Prop :=
  ∃ place c declaration,
    ((Declaration.parse spec.signature d.bindings d.sourceTag).run c).1 = .ok declaration ∧
      m = d.method id place spec declaration

theorem understands_of_wrap {d : Definition σ} {id place : Nat} {spec : MethodSpec σ} {s : Setup}
    {m : Method σ} (h : ((d.wrap id place spec).run s).1 = .ok m) : d.Understands id spec m := by
  rw [fst_run_wrap] at h
  obtain ⟨declaration, declared, rfl⟩ := map_eq_ok.mp h
  obtain ⟨c, parsed⟩ := exists_parse_of_declare (mapError_eq_ok.mp declared)
  exact ⟨place, s.classification, declaration, congrArg Prod.fst parsed, rfl⟩

theorem understands_of_wrapAll {d : Definition σ} {id place : Nat} {specs : List (MethodSpec σ)}
    {s : Setup} {ms : List (Method σ)} (h : ((d.wrapAll id place specs).run s).1 = .ok ms) :
    List.Forall₂ (d.Understands id) specs ms := by
  induction specs generalizing place s ms with
  | nil =>
      cases h
      exact .nil
  | cons spec rest ih =>
      rw [fst_run_wrapAll_cons, bind_eq_ok] at h
      obtain ⟨m, wrapped, h⟩ := h
      obtain ⟨later, hl, rfl⟩ := map_eq_ok.mp h
      exact .cons (understands_of_wrap wrapped) (ih hl)

/-- The methods of an adapter are what the specifications of the definition were understood
as, in order. -/
theorem understands_of_build {d : Definition σ} {id : Nat} {s : Setup} {a : Adapter σ}
    (h : ((d.build id).run s).1 = .ok a) :
    List.Forall₂ (d.Understands id) (d.specs s).1 a.methods := by
  rw [fst_run_build, map_eq_ok] at h
  obtain ⟨methods, hm, rfl⟩ := h
  exact understands_of_wrapAll hm

/-- Every method of an adapter is made from a specification of the definition. -/
theorem exists_spec_of_mem_build {d : Definition σ} {id : Nat} {s : Setup} {a : Adapter σ}
    (h : ((d.build id).run s).1 = .ok a) :
    ∀ m ∈ a.methods, ∃ spec ∈ (d.specs s).1, ∃ place declaration,
      m = d.method id place spec declaration := by
  intro m hm
  obtain ⟨spec, hs, place, -, declaration, -, method⟩ :=
    exists_mem_of_forall₂ (understands_of_build h) hm
  exact ⟨spec, hs, place, declaration, method⟩

/-- The methods of an adapter are told apart from all others by its identity. -/
theorem adapter_of_mem_build {d : Definition σ} {id : Nat} {s : Setup} {a : Adapter σ}
    (h : ((d.build id).run s).1 = .ok a) : ∀ m ∈ a.methods, m.id.adapter = id := by
  intro m hm
  obtain ⟨spec, -, place, declaration, rfl⟩ := exists_spec_of_mem_build h m hm
  rfl

end HostBridge.Adapter.Definition
