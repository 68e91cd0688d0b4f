import HostBridge.Proofs.Adapter.Revalidation
import HostBridge.Proofs.Declaration.Verdict

/-!
# Verdicts on specifications

The specifications of an adapter are judged one by one.  The verdict on one depends neither on
those before nor on what was classified by then (`verdictWith_eq`), so to wrap methods one after
the other is to judge a list (`map_wrapAll`).  It fails with the first verdict that is one of
refusal.
-/

namespace HostBridge.Adapter.Definition

variable {σ : Type} {d : Definition σ} {provided : EnvTypes} {spec : MethodSpec σ}

/-! ## Verdicts -/

/-- The specification is understood, whatever was classified before, and fits the kind and the
target of the definition. -/
def Accepts (d : Definition σ) (provided : EnvTypes) (spec : MethodSpec σ) : Prop :=
  ∀ c, ∃ declaration,
    ((Declaration.parse spec.signature d.bindings d.sourceTag).run c).1 = .ok declaration ∧
      d.kind.verify declaration d.target provided = .ok ()

/-- Why the specification is refused, whatever was classified before. -/
inductive Refuses (d : Definition σ) (provided : EnvTypes) (spec : MethodSpec σ) :
    WrapCause → Prop
  | declaration (e : DeclarationError)
      (refused : ∀ c,
        ((Declaration.parse spec.signature d.bindings d.sourceTag).run c).1 = .error e) :
      Refuses d provided spec (.declaration e)
  | requirement (e : RequirementError)
      (refused : ∀ c, ∃ declaration,
        ((Declaration.parse spec.signature d.bindings d.sourceTag).run c).1 = .ok declaration ∧
          d.kind.verify declaration d.target provided = .error e) :
      Refuses d provided spec (.requirement e)

/-- The first specification that is refused, and the error that says so. -/
def RefusesFirst (d : Definition σ) (provided : EnvTypes) (specs : List (MethodSpec σ))
    (e : RegistrationError) : Prop :=
  ∃ (i : Nat) (spec : MethodSpec σ) (cause : WrapCause), specs[i]? = some spec ∧
    d.Refuses provided spec cause ∧ e = .wrap d.name spec.signature.name cause ∧
    ∀ j < i, ∀ other, specs[j]? = some other → d.Accepts provided other

/-- The verdict on a specification, found with a classification. -/
def verdictWith (d : Definition σ) (provided : EnvTypes) (spec : MethodSpec σ)
    (c : Classification) : Except WrapCause Unit :=
  (((Declaration.parse spec.signature d.bindings d.sourceTag).run c).1.mapError
    .declaration).bind fun declaration =>
      (d.kind.verify declaration d.target provided).mapError .requirement

/-- The verdict on a specification. -/
def verdict (d : Definition σ) (provided : EnvTypes) (spec : MethodSpec σ) :
    Except WrapCause Unit :=
  d.verdictWith provided spec .empty

theorem verdictWith_of_ok {c : Classification} {declaration : Declaration}
    (h : ((Declaration.parse spec.signature d.bindings d.sourceTag).run c).1 = .ok declaration) :
    d.verdictWith provided spec c =
      (d.kind.verify declaration d.target provided).mapError .requirement := by
  rw [verdictWith, h]
  rfl

theorem verdictWith_of_error {c : Classification} {e : DeclarationError}
    (h : ((Declaration.parse spec.signature d.bindings d.sourceTag).run c).1 = .error e) :
    d.verdictWith provided spec c = .error (.declaration e) := by
  rw [verdictWith, h]
  rfl

/-- The verdict does not depend on the classification. -/
theorem verdictWith_eq (d : Definition σ) (provided : EnvTypes) (spec : MethodSpec σ)
    (c : Classification) : d.verdictWith provided spec c = d.verdict provided spec := by
  cases h : ((Declaration.parse spec.signature d.bindings d.sourceTag).run c).1 with
  | error e =>
      have refused := Declaration.parse_eq_error h .empty
      rw [verdictWith_of_error h, verdict, verdictWith_of_error refused]
  | ok declaration =>
      obtain ⟨declaration', h'⟩ := Declaration.exists_parse h .empty
      have reflects := Declaration.reflects_of_parse h
      have reflects' := Declaration.reflects_of_parse h'
      rw [verdictWith_of_ok h, verdict, verdictWith_of_ok h',
        reflects.verify_eq reflects' (.refl spec.signature)]

theorem accepts_iff : d.Accepts provided spec ↔ d.verdict provided spec = .ok () := by
  constructor
  · intro accepted
    obtain ⟨declaration, parsed, verified⟩ := accepted .empty
    rw [verdict, verdictWith_of_ok parsed, verified]
    rfl
  · intro h c
    rw [← verdictWith_eq d provided spec c, verdictWith, bind_eq_ok] at h
    obtain ⟨declaration, parsed, verified⟩ := h
    exact ⟨declaration, mapError_eq_ok.mp parsed, mapError_eq_ok.mp verified⟩

theorem refuses_of_verdict {cause : WrapCause} (h : d.verdict provided spec = .error cause) :
    d.Refuses provided spec cause := by
  have every (c : Classification) := (verdictWith_eq d provided spec c).trans h
  cases first : ((Declaration.parse spec.signature d.bindings d.sourceTag).run .empty).1 with
  | error e =>
      cases (verdictWith_of_error first).symm.trans h
      exact .declaration e (Declaration.parse_eq_error first)
  | ok declaration =>
      obtain ⟨e, -, rfl⟩ := mapError_eq_error.mp ((verdictWith_of_ok first).symm.trans h)
      refine .requirement e fun c => ?_
      obtain ⟨declaration', parsed⟩ := Declaration.exists_parse first c
      obtain ⟨e', refused, same⟩ :=
        mapError_eq_error.mp ((verdictWith_of_ok parsed).symm.trans (every c))
      cases same
      exact ⟨declaration', parsed, refused⟩

/-! ## Wrapping -/

/-- The answer to a specification: the error that building fails with, if it is refused. -/
def answerTo (d : Definition σ) (provided : EnvTypes) (spec : MethodSpec σ) :
    Except RegistrationError Unit :=
  (d.verdict provided spec).mapError (.wrap d.name spec.signature.name)

theorem map_declare (d : Definition σ) (spec : MethodSpec σ) (s : Setup) :
    ((d.declare spec).run s).1.map (fun _ => ()) = d.verdict (s.envTypes d.kind) spec := by
  rw [← verdictWith_eq d _ spec s.classification]
  cases h : (Declaration.parse spec.signature d.bindings d.sourceTag).run s.classification with
  | mk r c =>
      cases r with
      | error e =>
          rw [verdictWith_of_error (congrArg Prod.fst h), declare, fst_run_bind, run_adapt, run_mk,
            Setup.classifying, show Declaration.parse _ _ _ s.classification = _ from h]
          rfl
      | ok declaration =>
          rw [verdictWith_of_ok (congrArg Prod.fst h), fst_run_declare d spec h]
          cases d.kind.verify declaration d.target (s.envTypes d.kind) <;> rfl

/-- Wrapping answers to the specification alone. -/
theorem map_wrap (d : Definition σ) (id place : Nat) (spec : MethodSpec σ) (s : Setup) :
    ((d.wrap id place spec).run s).1.map (fun _ => ()) =
      d.answerTo (s.envTypes d.kind) spec := by
  rw [answerTo, ← map_declare, fst_run_wrap]
  cases ((d.declare spec).run s).1 <;> rfl

/-- Specifications are answered one by one. -/
theorem map_wrapAll (d : Definition σ) (id place : Nat) (specs : List (MethodSpec σ)) (s : Setup) :
    ((d.wrapAll id place specs).run s).1.map (fun _ => ()) =
      (specs.mapM (d.answerTo (s.envTypes d.kind))).map fun _ => () := by
  induction specs generalizing place s with
  | nil => rfl
  | cons spec rest ih =>
      have first := d.map_wrap id place spec s
      have moved := d.moves_wrap id place spec s
      rw [fst_run_wrapAll_cons, List.mapM_cons, ← first, ← moved.envTypes]
      cases ((d.wrap id place spec).run s).1 with
      | error e => rfl
      | ok m =>
          show Except.map _ (Except.map _ _) = Except.map _ (Except.bind _ _)
          have later := ih (place + 1) ((d.wrap id place spec).run s).2
          cases hl : ((d.wrapAll id (place + 1) rest).run ((d.wrap id place spec).run s).2).1 with
          | error e =>
              rw [hl] at later
              rw [map_eq_error.mp later.symm]
              rfl
          | ok ms =>
              rw [hl] at later
              obtain ⟨us, hus, -⟩ := map_eq_ok.mp later.symm
              rw [hus]
              rfl

theorem exists_wrapAll_iff {id place : Nat} {specs : List (MethodSpec σ)} {s : Setup} :
    (∃ ms, ((d.wrapAll id place specs).run s).1 = .ok ms) ↔
      ∀ spec ∈ specs, d.Accepts (s.envTypes d.kind) spec := by
  have answers := d.map_wrapAll id place specs s
  constructor
  · rintro ⟨ms, h⟩ spec hspec
    rw [h] at answers
    obtain ⟨us, hus, -⟩ := map_eq_ok.mp answers.symm
    obtain ⟨u, -, hu⟩ := exists_mem_of_forall₂ (mapM_eq_ok_iff.mp hus).flip hspec
    exact accepts_iff.mpr (mapError_eq_ok.mp hu)
  · intro h
    obtain ⟨us, hus⟩ := exists_forall₂ (R := fun spec u => d.answerTo _ spec = .ok u)
      fun spec hspec => ⟨(), mapError_eq_ok.mpr (accepts_iff.mp (h spec hspec))⟩
    rw [mapM_eq_ok_iff.mpr hus] at answers
    obtain ⟨ms, hms, -⟩ := map_eq_ok.mp answers
    exact ⟨ms, hms⟩

theorem refusesFirst_of_wrapAll {id place : Nat} {specs : List (MethodSpec σ)} {s : Setup}
    {e : RegistrationError} (h : ((d.wrapAll id place specs).run s).1 = .error e) :
    d.RefusesFirst (s.envTypes d.kind) specs e := by
  have answers := d.map_wrapAll id place specs s
  rw [h] at answers
  obtain ⟨i, spec, hi, refused, before⟩ := mapM_eq_error_iff.mp (map_eq_error.mp answers.symm)
  obtain ⟨cause, verdict, rfl⟩ := mapError_eq_error.mp refused
  refine ⟨i, spec, cause, hi, refuses_of_verdict verdict, rfl, fun j hj other ho => ?_⟩
  obtain ⟨u, hu⟩ := before j hj other ho
  exact accepts_iff.mpr (mapError_eq_ok.mp hu)

end HostBridge.Adapter.Definition
