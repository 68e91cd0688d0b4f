import HostBridge.Proofs.Adapter.Wrapping
import HostBridge.Proofs.Declaration.Shapes

/-!
# What building an adapter finds

While an adapter is built, types are classified, and no answer is forgotten (`Remembers`).
So when all methods are wrapped, what was found for the arguments of each is still kept
(`wraps_of_wrapAll`), whichever methods came after it.
-/

namespace HostBridge

variable {σ : Type}

/-! ## What setups remember -/

namespace Setup

/-- What the first setup keeps of classified types, the second one keeps too. -/
def Remembers (s s' : Setup) : Prop := s.classification.Keeps s'.classification

instance : Std.Refl Remembers := ⟨fun s => Std.Refl.refl s.classification⟩

instance : Trans Remembers Remembers Remembers :=
  ⟨fun first later ty shape kept => later ty shape (first ty shape kept)⟩

/-- The setups have the same classification. -/
def SameClassification (s s' : Setup) : Prop := s'.classification = s.classification

instance : Std.Refl SameClassification := ⟨fun _ => rfl⟩

instance : Trans SameClassification SameClassification SameClassification :=
  ⟨fun h h' => Eq.trans h' h⟩

end Setup

namespace Adapter.Definition

open Setup (Remembers SameClassification)

variable {d : Definition σ} {id : Nat}

/-- To wrap a method classifies what reading its signature does. -/
theorem classification_of_wrap (d : Definition σ) (id place : Nat) (spec : MethodSpec σ)
    (s : Setup) :
    ((d.wrap id place spec).run s).2.classification =
      ((Declaration.parse spec.signature d.bindings d.sourceTag).run s.classification).2 := by
  have wrapped : SameClassification ((d.declare spec).run s).2 ((d.wrap id place spec).run s).2 := by
    refine rel_run_bind (fun declaration => ?_)
      (ExceptT.adapt (RegistrationError.wrap d.name spec.signature.name) (d.declare spec)) s
    cases d.groupOf spec with
    | none => exact moves_bind (moves_monadLift fun _ => rfl) fun _ => moves_pure _
    | some group =>
        refine moves_bind (moves_modify fun _ => rfl) fun _ => ?_
        exact moves_bind (moves_monadLift fun _ => rfl) fun _ => moves_pure _
  have declared : SameClassification
      (Setup.classifying (Declaration.parse spec.signature d.bindings d.sourceTag) s).2
      ((d.declare spec).run s).2 := by
    refine rel_run_bind (fun declaration => ?_) (ExceptT.adapt WrapCause.declaration (ExceptT.mk
      (Setup.classifying (Declaration.parse spec.signature d.bindings d.sourceTag)))) s
    refine moves_bind moves_get fun setup => ?_
    exact moves_bind (moves_ofExcept _) fun _ => moves_pure declaration
  exact wrapped.trans declared

theorem remembers_wrap (d : Definition σ) (id place : Nat) (spec : MethodSpec σ) :
    Moves Remembers (d.wrap id place spec) := by
  intro s
  rw [Remembers, classification_of_wrap]
  exact Declaration.moves_parse spec.signature d.bindings d.sourceTag s.classification

theorem remembers_wrapAll (d : Definition σ) (id : Nat) (specs : List (MethodSpec σ))
    (place : Nat) : Moves Remembers (d.wrapAll id place specs) := by
  induction specs generalizing place with
  | nil => exact moves_pure _
  | cons spec rest ih =>
      refine moves_bind (d.remembers_wrap id place spec) fun _ => ?_
      exact moves_bind (ih (place + 1)) fun _ => moves_pure _

theorem remembers_of_wrapAll {place : Nat} {specs : List (MethodSpec σ)} {s s' : Setup}
    {r : Except RegistrationError (List (Method σ))}
    (h : (d.wrapAll id place specs).run s = (r, s')) : s.Remembers s' := by
  have remembers := d.remembers_wrapAll id specs place s
  rwa [h] at remembers

/-- The method is what the specification was understood as, and if the specification gives no
tags, its arguments have the shapes that were found. -/
structure Wraps (d : Definition σ) (id : Nat) (c : Classification) (spec : MethodSpec σ)
    (m : Method σ) : Prop where
  understands : d.Understands id spec m
  shown : (∀ p ∈ spec.signature.params, p.Untagged) → ∀ a ∈ m.declaration.arguments, a.ShownBy c

theorem Wraps.keeps {c c' : Classification} {spec : MethodSpec σ} {m : Method σ}
    (h : d.Wraps id c spec m) (kept : c.Keeps c') : d.Wraps id c' spec m :=
  ⟨h.understands, fun untagged a ha => (h.shown untagged a ha).keeps kept⟩

theorem wraps_of_wrap {place : Nat} {spec : MethodSpec σ} {s s' : Setup} {m : Method σ}
    (h : (d.wrap id place spec).run s = (.ok m, s')) : d.Wraps id s'.classification spec m := by
  have answer := congrArg Prod.fst h
  have after := d.classification_of_wrap id place spec s
  refine ⟨understands_of_wrap answer, fun untagged => ?_⟩
  rw [fst_run_wrap] at answer
  obtain ⟨declaration, declared, rfl⟩ := map_eq_ok.mp answer
  obtain ⟨c, parsed⟩ := exists_parse_of_declare (mapError_eq_ok.mp declared)
  rw [parsed, h] at after
  obtain rfl : s'.classification = c := after
  exact Declaration.shown_of_parse untagged parsed

/-- When all methods are wrapped, what was found for their arguments is kept. -/
theorem wraps_of_wrapAll {place : Nat} {specs : List (MethodSpec σ)} {s s' : Setup}
    {ms : List (Method σ)} (h : (d.wrapAll id place specs).run s = (.ok ms, s')) :
    List.Forall₂ (d.Wraps id s'.classification) specs ms := by
  induction specs generalizing place s ms with
  | nil =>
      cases h
      exact .nil
  | cons spec rest ih =>
      rw [run_wrapAll_cons] at h
      cases hw : (d.wrap id place spec).run s with
      | mk r s₁ =>
          have kept := d.remembers_wrapAll id rest (place + 1) s₁
          rw [hw] at h
          cases r with
          | error e => cases h
          | ok m =>
              dsimp only at h
              cases hr : (d.wrapAll id (place + 1) rest).run s₁ with
              | mk r s₂ =>
                  rw [hr] at h kept
                  cases r with
                  | error e => cases h
                  | ok later =>
                      cases h
                      exact .cons ((wraps_of_wrap hw).keeps kept) (ih hr)

end Adapter.Definition

end HostBridge
