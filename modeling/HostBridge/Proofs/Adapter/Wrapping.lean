import HostBridge.Proofs.Adapter.Building

/-!
# Wrapping and gating

To wrap a method makes its feature group known.  That is all that building an adapter
does to gating, so the groups of the methods wrapped so far are the only ones it adds,
whether or not a later method fits.

`StopsAt` says where building stopped.  The methods before were wrapped one after the
other, and the next one could not be understood or does not fit the host.
-/

namespace HostBridge

/-! ## Known groups -/

namespace Gating

/-- The gating that knows more groups. -/
def mentionAll (g : Gating) (groups : List String) : Gating := groups.foldl mention g

theorem mentionAll_append (g : Gating) (xs ys : List String) :
    g.mentionAll (xs ++ ys) = (g.mentionAll xs).mentionAll ys :=
  List.foldl_append

theorem mem_keys_mention (g : Gating) (name group : String) :
    group ∈ (g.mention name).disabled.keys ↔ group = name ∨ group ∈ g.disabled.keys := by
  unfold mention
  split
  · rename_i h
    have known := (Dict.contains_iff _ _).mp h
    constructor
    · exact Or.inr
    · rintro (rfl | h)
      · exact known
      · exact h
  · exact Dict.mem_keys_insert ..

theorem mem_keys_mentionAll (g : Gating) (groups : List String) (group : String) :
    group ∈ (g.mentionAll groups).disabled.keys ↔ group ∈ g.disabled.keys ∨ group ∈ groups := by
  induction groups generalizing g with
  | nil => simp [mentionAll]
  | cons name rest ih =>
      rw [show g.mentionAll (name :: rest) = (g.mention name).mentionAll rest from rfl, ih,
        mem_keys_mention, List.mem_cons]
      tauto

theorem mem_knownGroups {g : Gating} {group : String} :
    group ∈ g.knownGroups ↔ group ∈ g.disabled.keys := by
  simp [knownGroups]

/-- The groups known are those known before and those mentioned. -/
theorem mem_knownGroups_mentionAll (g : Gating) (groups : List String) (group : String) :
    group ∈ (g.mentionAll groups).knownGroups ↔ group ∈ g.knownGroups ∨ group ∈ groups := by
  rw [mem_knownGroups, mem_knownGroups, mem_keys_mentionAll]

end Gating

/-- The setups have the same gating. -/
def Setup.SameGating (s s' : Setup) : Prop := s'.gating = s.gating

instance : Std.Refl Setup.SameGating := ⟨fun _ => rfl⟩

instance : Trans Setup.SameGating Setup.SameGating Setup.SameGating :=
  ⟨fun h h' => Eq.trans h' h⟩

namespace Adapter.Definition

open Setup (SameGating)

variable {σ : Type}

/-! ## One method -/

theorem moves_declare_sameGating (d : Definition σ) (spec : MethodSpec σ) :
    Moves SameGating (d.declare spec) := by
  refine moves_bind (moves_adapt (moves_mk fun _ => rfl)) fun declaration => ?_
  refine moves_bind moves_get fun setup => ?_
  exact moves_bind (moves_ofExcept _) fun _ => moves_pure declaration

/-- A method that was wrapped makes its group known. -/
theorem gating_of_wrap {d : Definition σ} {id place : Nat} {spec : MethodSpec σ} {s s' : Setup}
    {m : Method σ} (h : (d.wrap id place spec).run s = (.ok m, s')) :
    s'.gating = s.gating.mentionAll (d.groupOf spec).toList := by
  have same := d.moves_declare_sameGating spec s
  rw [wrap, run_bind, run_adapt] at h
  cases hd : (d.declare spec).run s with
  | mk r s₁ =>
      rw [hd] at h same
      cases r with
      | error cause => cases h
      | ok declaration =>
          rw [← show s₁.gating = s.gating from same]
          cases hg : d.groupOf spec with
          | none =>
              rw [hg] at h
              cases h
              rfl
          | some group =>
              rw [hg] at h
              cases h
              rfl

/-- A method that was not wrapped leaves gating as it was. -/
theorem wrap_eq_error {d : Definition σ} {id place : Nat} {spec : MethodSpec σ} {s s' : Setup}
    {e : RegistrationError} (h : (d.wrap id place spec).run s = (.error e, s')) :
    s'.gating = s.gating ∧ ∃ cause, ((d.declare spec).run s).1 = .error cause ∧
      e = .wrap d.name spec.signature.name cause := by
  have same := d.moves_declare_sameGating spec s
  rw [wrap, run_bind, run_adapt] at h
  cases hd : (d.declare spec).run s with
  | mk r s₁ =>
      rw [hd] at h same
      cases r with
      | error cause =>
          cases h
          exact ⟨same, cause, rfl, rfl⟩
      | ok declaration => cases hg : d.groupOf spec <;> rw [hg] at h <;> cases h

/-! ## Methods one after the other -/

theorem run_wrapAll_cons (d : Definition σ) (id place : Nat) (spec : MethodSpec σ)
    (rest : List (MethodSpec σ)) (s : Setup) :
    (d.wrapAll id place (spec :: rest)).run s =
      match (d.wrap id place spec).run s with
      | (.error e, s') => (.error e, s')
      | (.ok m, s') =>
          match (d.wrapAll id (place + 1) rest).run s' with
          | (.error e, s'') => (.error e, s'')
          | (.ok ms, s'') => (.ok (m :: ms), s'') := by
  rw [wrapAll, run_bind]
  rcases (d.wrap id place spec).run s with ⟨_ | m, s'⟩
  · rfl
  · dsimp only
    rw [run_bind]
    rcases (d.wrapAll id (place + 1) rest).run s' with ⟨_ | _, _⟩ <;> rfl

theorem gating_of_wrapAll {d : Definition σ} {id place : Nat} {specs : List (MethodSpec σ)}
    {s s' : Setup} {ms : List (Method σ)} (h : (d.wrapAll id place specs).run s = (.ok ms, s')) :
    s'.gating = s.gating.mentionAll (specs.filterMap d.groupOf) := by
  induction specs generalizing place s ms with
  | nil =>
      cases h
      rfl
  | cons spec rest ih =>
      rw [run_wrapAll_cons] at h
      cases hw : (d.wrap id place spec).run s with
      | mk r s₁ =>
          rw [hw] at h
          cases r with
          | error e => cases h
          | ok m =>
              cases hr : (d.wrapAll id (place + 1) rest).run s₁ with
              | mk r s₂ =>
                  simp only [hr] at h
                  cases r with
                  | error e => cases h
                  | ok later =>
                      cases h
                      rw [ih hr, gating_of_wrap hw, ← Gating.mentionAll_append]
                      cases hg : d.groupOf spec <;> simp [hg]

/-- Wrapping that fails has wrapped all methods before one that is refused. -/
theorem wrapAll_eq_error {d : Definition σ} {id place : Nat} {specs : List (MethodSpec σ)}
    {s s' : Setup} {e : RegistrationError}
    (h : (d.wrapAll id place specs).run s = (.error e, s')) :
    ∃ before failing after ms s₁, specs = before ++ failing :: after ∧
      (d.wrapAll id place before).run s = (.ok ms, s₁) ∧
      (d.wrap id (place + before.length) failing).run s₁ = (.error e, s') := by
  induction specs generalizing place s with
  | nil => cases h
  | cons spec rest ih =>
      rw [run_wrapAll_cons] at h
      cases hw : (d.wrap id place spec).run s with
      | mk r s₁ =>
          rw [hw] at h
          cases r with
          | error e =>
              cases h
              exact ⟨[], spec, rest, [], s, rfl, rfl, hw⟩
          | ok m =>
              cases hr : (d.wrapAll id (place + 1) rest).run s₁ with
              | mk r s₂ =>
                  simp only [hr] at h
                  cases r with
                  | ok later => cases h
                  | error e =>
                      cases h
                      obtain ⟨before, failing, after, ms, s₃, rfl, hb, hf⟩ := ih hr
                      refine ⟨spec :: before, failing, after, m :: ms, s₃, rfl, ?_, ?_⟩
                      · rw [run_wrapAll_cons, hw]
                        simp only [hb]
                      · rwa [List.length_cons, Nat.add_comm before.length, ← Nat.add_assoc]

/-! ## Whole adapters -/

/-- Building stops at a method that is refused, after those before it were wrapped. -/
structure StopsAt (d : Definition σ) (id : Nat) (s : Setup) (before : List (MethodSpec σ))
    (failing : MethodSpec σ) (cause : WrapCause) : Prop where
  /-- The method comes right after the others. -/
  specs : ∃ after, (d.specs s).1 = before ++ failing :: after
  /-- The others are wrapped, and then the method is refused. -/
  refused : ∃ ms s', (d.wrapAll id 0 before).run (d.specs s).2 = (.ok ms, s') ∧
    ((d.declare failing).run s').1 = .error cause

theorem gating_specs (d : Definition σ) (s : Setup) : (d.specs s).2.gating = s.gating := by
  have same : (Setup.classifying d.enumerate s).2.gating = s.gating := rfl
  simp only [specs, bind, StateT.bind]
  cases hr : Setup.classifying d.enumerate s with
  | mk r s' =>
      rw [hr] at same
      cases r <;> exact same

/-- Building that fails leaves the groups known that it met on the way. -/
theorem build_eq_error {d : Definition σ} {id : Nat} {s s' : Setup} {e : RegistrationError}
    (h : (d.build id).run s = (.error e, s')) :
    ∃ before failing cause, d.StopsAt id s before failing cause ∧
      e = .wrap d.name failing.signature.name cause ∧
      s'.gating = s.gating.mentionAll (before.filterMap d.groupOf) := by
  rw [build, run_bind, run_monadLift] at h
  dsimp only at h
  rw [run_bind] at h
  cases hw : (d.wrapAll id 0 (d.specs s).1).run (d.specs s).2 with
  | mk r s₁ =>
      rw [hw] at h
      cases r with
      | ok methods => cases h
      | error e =>
          cases h
          obtain ⟨before, failing, after, ms, s₂, hs, hb, hf⟩ := wrapAll_eq_error hw
          obtain ⟨same, cause, refused, rfl⟩ := wrap_eq_error hf
          refine ⟨before, failing, cause, ⟨⟨after, hs⟩, ms, s₂, hb, refused⟩, rfl, ?_⟩
          rw [same, gating_of_wrapAll hb, gating_specs]

end Adapter.Definition

end HostBridge
