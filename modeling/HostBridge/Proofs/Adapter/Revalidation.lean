import HostBridge.Proofs.Adapter.Enumeration
import HostBridge.Proofs.Adapter.Verification

/-!
# Checking an adapter again

To check an adapter again looks at its declarations only, while to build it again finds all
methods anew, with a classification that may have changed, and reads their signatures once
more.  The two answer alike (`revalidate_eq_build`).

What a classification decides is the shapes of arguments and the tags of properties that are
read.  Neither bears on whether a signature can be understood, nor on what a method requires
of a host.  `Signature.Alike` says what two enumerations have in common.
-/

namespace HostBridge

variable {σ : Type}

/-! ## Signatures that differ in their tags -/

/-- The signatures take the same parameters under one name and have the same result, with as
many tags. -/
structure Signature.Alike (s s' : Signature) : Prop where
  name : s'.name = s.name
  params : s'.params = s.params
  returns : s'.returns = s.returns
  splits : s'.splitsResult = s.splitsResult
  tags : s'.resultTags.length = s.resultTags.length

theorem Signature.Alike.refl (s : Signature) : s.Alike s := ⟨rfl, rfl, rfl, rfl, rfl⟩

/-- Whether a signature can be understood does not depend on which tags it has. -/
theorem Signature.Alike.grammatical {s s' : Signature} (h : s.Alike s') {bindings : Host.Bindings}
    (hg : s.Grammatical bindings) : s'.Grammatical bindings := by
  obtain ⟨types, arranged, arrays, names, returns, hr, fits⟩ := hg
  have multi : s'.MultiValued returns ↔ s.MultiValued returns := by
    rw [Signature.MultiValued, Signature.MultiValued, h.splits]
  have tagged : s'.resultTags ≠ [] ↔ s.resultTags ≠ [] := by
    rw [← List.length_pos_iff, ← List.length_pos_iff, h.tags]
  rw [← h.params] at types arranged arrays names
  refine ⟨types, arranged, arrays, names, returns, h.returns ▸ hr, ?_⟩
  rw [Signature.ResultFits, multi, tagged, h.splits, h.tags]
  exact fits

/-! ## What a method requires of a host -/

namespace Declaration

/-- A parameter by position is read in one way. -/
theorem rightUnique_fits_positional (bindings : Host.Bindings) :
    Relator.RightUnique fun (p : Param × Nat) ty => Fits bindings p.1 p.2 (.positional ty) :=
  fun _ _ _ h h' => Except.ok.inj (h.resolve_eq.symm.trans h'.resolve_eq)

/-- A parameter under a name is read in one way. -/
theorem rightUnique_fits_env (bindings : Host.Bindings) :
    Relator.RightUnique fun (p : Param × Nat) e => Fits bindings p.1 p.2 (.env e) := by
  rintro p ⟨name, ty, index⟩ ⟨name', ty', index'⟩ h h'
  cases h with
  | env role resolved place _ =>
      cases h' with
      | env role' resolved' place' _ =>
          cases role.symm.trans role'
          cases resolved.symm.trans resolved'
          cases place.trans place'.symm
          rfl

/-- Declarations of signatures that differ in their tags require the same of a host. -/
theorem Reflects.verify_eq {d d' : Declaration} {s s' : Signature} {bindings : Host.Bindings}
    {source source' : String} (h : d.Reflects s bindings source)
    (h' : d'.Reflects s' bindings source') (alike : s.Alike s') (kind : Adapter.Kind)
    (target : Host.Class) (provided : EnvTypes) :
    kind.verify d' target provided = kind.verify d target provided := by
  have name : d'.name = d.name := by
    rw [(List.cons.inj h.names_eq).1, (List.cons.inj h'.names_eq).1, alike.name]
  have positional : d'.positional = d.positional := by
    exact List.right_unique_forall₂' (rightUnique_fits_positional bindings)
      (alike.params ▸ h'.positional) h.positional
  have env : d'.env = d.env := by
    exact List.right_unique_forall₂' (rightUnique_fits_env bindings)
      (alike.params ▸ h'.env) h.env
  rw [Adapter.Kind.verify, Adapter.Kind.verify, checkPositional, checkPositional, checkEnv,
    checkEnv, name, positional, env]

end Declaration

/-! ## Two enumerations -/

/-- The specifications have signatures that differ in their tags. -/
def MethodSpec.Alike (spec spec' : MethodSpec σ) : Prop := spec.signature.Alike spec'.signature

/-- Other tags for the reading accessor make no other difference. -/
theorem Property.alike_accessors (p : Property σ) (target : Host.Class)
    (tag tag' : Script.ResultTag) :
    List.Forall₂ MethodSpec.Alike (p.accessors target tag) (p.accessors target tag') := by
  have getter : (p.getterSpec target tag).Alike (p.getterSpec target tag') :=
    ⟨rfl, rfl, rfl, rfl, rfl⟩
  cases hs : p.setter with
  | none =>
      rw [accessors_of_none hs, accessors_of_none hs]
      exact .cons getter .nil
  | some setter =>
      rw [accessors_of_some hs, accessors_of_some hs]
      exact .cons getter (.cons (.refl _) .nil)

namespace Adapter.Definition

variable {d : Definition σ}

/-- Accessors that are made under another classification are alike. -/
theorem alike_generate (d : Definition σ) (c c' : Classification) :
    List.Forall₂ (List.Forall₂ MethodSpec.Alike) (d.generate c).1 (d.generate c').1 := by
  refine forall₂_trans (d.accessors_of_generate c).flip (d.accessors_of_generate c') ?_
  rintro _ p _ ⟨c₁, rfl, -⟩ ⟨c₂, rfl, -⟩
  exact p.alike_accessors d.target _ _

/-- The methods of a definition are alike, from whichever setup they are found. -/
theorem alike_specs (d : Definition σ) (s s' : Setup) :
    List.Forall₂ MethodSpec.Alike (d.specs s).1 (d.specs s').1 := by
  have same (specs : List (MethodSpec σ)) : List.Forall₂ MethodSpec.Alike specs specs :=
    List.forall₂_same.mpr fun spec _ => .refl spec.signature
  cases provider : d.provider.getD (.ok []) with
  | error reason =>
      rw [specs_of_error provider, specs_of_error provider]
      exact .nil
  | ok found =>
      rw [specs_of_ok provider, specs_of_ok provider]
      exact List.rel_append (same _) (List.rel_flatten (d.alike_generate _ _))

/-! ## Building again -/

/-- To wrap a method that is like one of an adapter is to check the method of the adapter. -/
theorem fst_run_wrap_alike {id : Nat} {spec spec' : MethodSpec σ} {m : Method σ}
    (h : d.Understands id spec m) (alike : spec.Alike spec') (id' place : Nat) (s : Setup) :
    ((d.wrap id' place spec').run s).1.map (fun _ => ()) =
      (d.kind.verify m.declaration d.target (s.envTypes d.kind)).mapError fun e =>
        .wrap d.name m.name (.requirement e) := by
  obtain ⟨first, c, declaration, parsed, rfl⟩ := h
  have grammatical := alike.grammatical
    ((Declaration.exists_parse_iff _ _ d.sourceTag c).mp ⟨declaration, parsed⟩)
  obtain ⟨declaration', parsed'⟩ :=
    (Declaration.exists_parse_iff _ _ d.sourceTag s.classification).mpr grammatical
  have reflects := Declaration.reflects_of_parse parsed
  have verified := reflects.verify_eq (Declaration.reflects_of_parse parsed') alike d.kind d.target
    (s.envTypes d.kind)
  have name : (d.method id first spec declaration).name = spec'.signature.name := by
    rw [alike.name]
    exact (List.cons.inj reflects.names_eq).1
  rw [fst_run_wrap_of_parse d id' place spec' declaration' (Prod.ext parsed' rfl), verified, name]
  show _ = (d.kind.verify declaration _ _).mapError _
  cases d.kind.verify declaration d.target (s.envTypes d.kind) <;> rfl

/-- To wrap methods that are like those of an adapter is to check those of the adapter, and
it stops at the same method. -/
theorem fst_run_wrapAll_alike {id : Nat} {specs specs' : List (MethodSpec σ)}
    {ms : List (Method σ)} (h : List.Forall₂ (d.Understands id) specs ms)
    (alike : List.Forall₂ MethodSpec.Alike specs specs') (id' place : Nat) (s : Setup) :
    ((d.wrapAll id' place specs').run s).1.map (fun _ => ()) =
      ms.forM fun m =>
        (d.kind.verify m.declaration d.target (s.envTypes d.kind)).mapError fun e =>
          .wrap d.name m.name (.requirement e) := by
  induction h generalizing specs' place s with
  | nil =>
      cases alike
      rfl
  | @cons spec m rest ms understood _ ih =>
      cases alike with
      | @cons _ spec' _ rest' first later =>
          have wrapped := fst_run_wrap_alike understood first id' place s
          have moved := d.moves_wrap id' place spec' s
          rw [fst_run_wrapAll_cons, List.forM, ← wrapped, ← moved.envTypes]
          cases ((d.wrap id' place spec').run s).1 with
          | error e => rfl
          | ok m' =>
              show Except.map _ (Except.map _ _) = _
              rw [← ih later (place + 1) ((d.wrap id' place spec').run s).2]
              cases ((d.wrapAll id' (place + 1) rest').run _).1 <;> rfl

/-- An adapter is checked again with a setup exactly as its definition would be built with
it, errors included. -/
theorem revalidate_eq_build {id : Nat} {s : Setup} {a : Adapter σ}
    (h : ((d.build id).run s).1 = .ok a) (id' : Nat) (s' : Setup) :
    a.revalidate s' = ((d.build id').run s').1.map fun _ => () := by
  have understood := understands_of_build h
  have wrapped := fst_run_wrapAll_alike understood (d.alike_specs s s') id' 0 (d.specs s').2
  rw [fst_run_build, map_eq_ok] at h
  obtain ⟨methods, -, rfl⟩ := h
  rw [(d.agrees_specs s').envTypes] at wrapped
  rw [revalidate, fst_run_build, ← wrapped]
  cases ((d.wrapAll id' 0 (d.specs s').1).run (d.specs s').2).1 <;> rfl

end Adapter.Definition

end HostBridge
