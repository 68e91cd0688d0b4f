import HostBridge.Proofs.Adapter.Building
import HostBridge.Proofs.Declaration.Substitution

/-!
# Instances of generic definitions

A definition may leave types of its methods and properties open and bind them by name.
Its instance has the bound types in their places and binds nothing.

The two places where bindings matter are the reading of a signature and the tag of a
property that is read.  Substitution goes through both, and through all that is built on
them, so a definition whose types resolve is built exactly as its instance
(`build_instantiate`).
-/

namespace HostBridge

variable {σ : Type}

/-! ## Properties -/

/-- The method with its signature substituted. -/
def MethodSpec.substitute (bindings : Host.Bindings) (spec : MethodSpec σ) : MethodSpec σ :=
  { spec with signature := spec.signature.substitute bindings }

namespace Property

variable {bindings : Host.Bindings} {p : Property σ}

/-- The property with its types substituted. -/
def substitute (bindings : Host.Bindings) (p : Property σ) : Property σ :=
  { p with
    ty := p.ty.substitute bindings
    index := p.index.map (Host.Ty.substitute bindings) }

/-- The types of the property resolve. -/
structure Resolves (bindings : Host.Bindings) (p : Property σ) : Prop where
  value : p.ty.Resolves bindings
  index : ∀ ty ∈ p.index, ty.Resolves bindings

/-- The accessors of the property, given the tag of what the reading one returns. -/
def accessors (p : Property σ) (target : Host.Class) (tag : Script.ResultTag) :
    List (MethodSpec σ) :=
  let getter := {
    signature := p.getterSignature target tag
    function := p.getter
    group := p.group
    ofProperty := true }
  match p.setter with
  | none => [getter]
  | some setter => [getter, {
      signature := p.setterSignature target
      function := setter
      group := p.group
      ofProperty := true }]

theorem methodSpecs_eq (p : Property σ) (target : Host.Class) (bindings : Host.Bindings) :
    p.methodSpecs target bindings = p.accessors target <$> p.resultTag bindings := by
  rw [methodSpecs, map_eq_pure_bind]
  unfold accessors
  cases p.setter <;> rfl

theorem resultTag_substitute (h : p.ty.Resolves bindings) :
    (p.substitute bindings).resultTag .empty = p.resultTag bindings := by
  have same : (p.substitute bindings).ty.resolve .empty = p.ty.resolve bindings :=
    h.resolve_substitute .empty
  rw [resultTag, resultTag, same]

theorem commonParams_substitute (target : Host.Class) :
    (p.substitute bindings).commonParams target =
      (p.commonParams target).map (Param.substitute bindings) := by
  unfold commonParams substitute
  cases p.index <;> rfl

theorem getterSignature_substitute (target : Host.Class) (tag : Script.ResultTag) :
    (p.substitute bindings).getterSignature target tag =
      (p.getterSignature target tag).substitute bindings := by
  rw [getterSignature, commonParams_substitute]
  rfl

theorem setterSignature_substitute (target : Host.Class) :
    (p.substitute bindings).setterSignature target =
      (p.setterSignature target).substitute bindings := by
  rw [setterSignature, commonParams_substitute, setterSignature, Signature.substitute,
    List.map_append]
  rfl

theorem accessors_substitute (target : Host.Class) (tag : Script.ResultTag) :
    (p.substitute bindings).accessors target tag =
      (p.accessors target tag).map (MethodSpec.substitute bindings) := by
  rw [accessors, getterSignature_substitute, setterSignature_substitute, accessors]
  show (match p.setter with | none => _ | some setter => _) = _
  cases p.setter <;> rfl

theorem methodSpecs_substitute (h : p.ty.Resolves bindings) (target : Host.Class) :
    (p.substitute bindings).methodSpecs target .empty =
      List.map (MethodSpec.substitute bindings) <$> p.methodSpecs target bindings := by
  rw [methodSpecs_eq, methodSpecs_eq, resultTag_substitute h,
    funext (accessors_substitute target)]
  exact comp_map ..

/-- The accessors have the types of the property, and the class of the target, which has
no variables. -/
theorem Resolves.accessors (h : p.Resolves bindings) (target : Host.Class)
    (tag : Script.ResultTag) :
    ∀ spec ∈ p.accessors target tag, spec.signature.Resolves bindings := by
  have common : ∀ q ∈ p.commonParams target, q.ty.Resolves bindings := by
    intro q hq
    rcases List.mem_cons.mp hq with rfl | hq
    · exact ⟨_, rfl⟩
    · cases hi : p.index with
      | none =>
          rw [hi] at hq
          cases hq
      | some ty =>
          rw [hi] at hq
          rw [List.mem_singleton.mp hq]
          exact h.index ty hi
  have getter : (p.getterSignature target tag).Resolves bindings := ⟨common, h.value⟩
  have setter : (p.setterSignature target).Resolves bindings := by
    refine ⟨List.forall_mem_append.mpr ⟨common, ?_⟩, ⟨_, rfl⟩⟩
    exact List.forall_mem_singleton.mpr h.value
  intro spec hspec
  rw [Property.accessors] at hspec
  cases hs : p.setter with
  | none =>
      rw [hs] at hspec
      rw [List.mem_singleton.mp hspec]
      exact getter
  | some f =>
      simp only [hs, List.mem_cons, List.not_mem_nil, or_false] at hspec
      rcases hspec with rfl | rfl
      · exact getter
      · exact setter

end Property

/-! ## Definitions -/

namespace Adapter.Definition

/-- The definition with all types substituted, which binds nothing. -/
def instantiate (d : Definition σ) : Definition σ :=
  { d with
    bindings := .empty
    methods := d.methods.map (MethodSpec.substitute d.bindings)
    provider := d.provider.map (Except.map (List.map (MethodSpec.substitute d.bindings)))
    properties := d.properties.map (Property.substitute d.bindings) }

/-- All types of methods and properties resolve. -/
structure Resolves (d : Definition σ) : Prop where
  methods : ∀ spec ∈ d.methods, spec.signature.Resolves d.bindings
  found : ∀ specs, d.provider = some (.ok specs) →
    ∀ spec ∈ specs, spec.signature.Resolves d.bindings
  properties : ∀ p ∈ d.properties, p.Resolves d.bindings

/-- Where a method of a definition comes from. -/
theorem mem_enumerate {d : Definition σ} {c : Classification} {specs : List (MethodSpec σ)}
    (h : (d.enumerate.run c).1 = .ok specs) :
    ∀ spec ∈ specs, spec ∈ d.methods ∨
      (∃ found, d.provider = some (.ok found) ∧ spec ∈ found) ∨
      ∃ p ∈ d.properties, ∃ tag, spec ∈ p.accessors d.target tag := by
  rw [enumerate, fst_run_bind, run_ofExcept, bind_eq_ok] at h
  obtain ⟨found, hf, h⟩ := h
  dsimp only at h
  rw [fst_run_bind, bind_eq_ok] at h
  obtain ⟨accessors, ha, h⟩ := h
  cases h
  intro spec hspec
  rcases List.mem_append.mp hspec with hspec | hspec
  · rcases List.mem_append.mp hspec with hspec | hspec
    · exact .inl hspec
    · refine .inr (.inl ⟨found, ?_, hspec⟩)
      cases hp : d.provider with
      | none =>
          rw [hp] at hf
          cases hf
          cases hspec
      | some answer =>
          rw [hp] at hf
          exact congrArg some hf
  · obtain ⟨group, hgroup, hspec⟩ := List.mem_flatten.mp hspec
    obtain ⟨p, hp, c', answer⟩ := exists_mem_of_mapM ha group hgroup
    rw [Property.methodSpecs_eq] at answer
    cases answer
    exact .inr (.inr ⟨p, hp, _, hspec⟩)

theorem Resolves.enumerate {d : Definition σ} (h : d.Resolves) {c : Classification}
    {specs : List (MethodSpec σ)} (hs : (d.enumerate.run c).1 = .ok specs) :
    ∀ spec ∈ specs, spec.signature.Resolves d.bindings := by
  intro spec hspec
  rcases mem_enumerate hs spec hspec with given | ⟨found, provided, hspec⟩ | ⟨p, hp, tag, hspec⟩
  · exact h.methods spec given
  · exact h.found found provided spec hspec
  · exact (h.properties p hp).accessors d.target tag spec hspec

/-- The instance has the same methods, substituted. -/
theorem enumerate_instantiate {d : Definition σ} (h : d.Resolves) :
    d.instantiate.enumerate =
      List.map (MethodSpec.substitute d.bindings) <$> d.enumerate := by
  have found : d.instantiate.provider.getD (.ok []) =
      (d.provider.getD (.ok [])).map (List.map (MethodSpec.substitute d.bindings)) := by
    rw [instantiate]
    cases d.provider <;> rfl
  have step : ∀ p ∈ d.properties,
      ((p.substitute d.bindings).methodSpecs d.target .empty :
        ExceptT String (StateM Classification) (List (MethodSpec σ))) =
      List.map (MethodSpec.substitute d.bindings) <$>
        (p.methodSpecs d.target d.bindings : ExceptT String (StateM Classification) _) := by
    intro p hp
    rw [Property.methodSpecs_substitute (h.properties p hp).value]
    rfl
  have accessors : d.instantiate.properties.mapM
      (fun p => (p.methodSpecs d.instantiate.target d.instantiate.bindings :
        ExceptT String (StateM Classification) (List (MethodSpec σ)))) = _ :=
    mapM_map_of_forall step
  -- Both ask for the accessors only if the provider did not fail.
  rw [enumerate, found, enumerate, accessors]
  cases d.provider.getD (.ok []) with
  | error reason => rfl
  | ok specs =>
      simp only [Except.map, MonadExcept.ofExcept, pure_bind, bind_map_left, map_bind, map_pure]
      refine congrArg _ (funext fun groups => congrArg pure ?_)
      simp [instantiate, List.map_flatten]

/-- What is left of the methods if they cannot be found is the same. -/
theorem specs_instantiate {d : Definition σ} (h : d.Resolves) (s : Setup) :
    d.instantiate.specs s =
      ((d.specs s).1.map (MethodSpec.substitute d.bindings), (d.specs s).2) := by
  have run := run_map (List.map (MethodSpec.substitute d.bindings)) d.enumerate s.classification
  rw [← enumerate_instantiate h] at run
  rw [specs_eq, specs_eq, run]
  rcases d.enumerate.run s.classification with ⟨_ | _, c⟩ <;> rfl

theorem Resolves.specs {d : Definition σ} (h : d.Resolves) (s : Setup) :
    ∀ spec ∈ (d.specs s).1, spec.signature.Resolves d.bindings := by
  rw [specs_eq]
  rcases hr : d.enumerate.run s.classification with ⟨reason | specs, c⟩
  · exact List.forall_mem_nil _
  · exact h.enumerate (congrArg Prod.fst hr)

/-! ## Building -/

theorem declare_instantiate (d : Definition σ) {spec : MethodSpec σ}
    (h : spec.signature.Resolves d.bindings) :
    d.instantiate.declare (spec.substitute d.bindings) = d.declare spec := by
  have parsed : Declaration.parse (spec.substitute d.bindings).signature d.instantiate.bindings
      d.instantiate.sourceTag = Declaration.parse spec.signature d.bindings d.sourceTag :=
    Declaration.parse_substitute h
  rw [declare, parsed]
  rfl

theorem wrap_instantiate (d : Definition σ) (id place : Nat) {spec : MethodSpec σ}
    (h : spec.signature.Resolves d.bindings) :
    d.instantiate.wrap id place (spec.substitute d.bindings) = d.wrap id place spec := by
  rw [wrap, d.declare_instantiate h]
  rfl

theorem wrapAll_instantiate (d : Definition σ) (id place : Nat) {specs : List (MethodSpec σ)}
    (h : ∀ spec ∈ specs, spec.signature.Resolves d.bindings) :
    d.instantiate.wrapAll id place (specs.map (MethodSpec.substitute d.bindings)) =
      d.wrapAll id place specs := by
  induction specs generalizing place with
  | nil => rfl
  | cons spec rest ih =>
      obtain ⟨first, later⟩ := List.forall_mem_cons.mp h
      rw [List.map_cons, wrapAll, wrapAll, d.wrap_instantiate id place first,
        ih (place + 1) later]

/-- A definition whose types resolve is built as its instance is, traces and errors
included. -/
theorem build_instantiate {d : Definition σ} (h : d.Resolves) (id : Nat) (s : Setup) :
    (d.instantiate.build id).run s = (d.build id).run s := by
  rw [build, build, run_bind, run_bind, run_monadLift, run_monadLift, specs_instantiate h]
  dsimp only
  rw [d.wrapAll_instantiate id 0 (h.specs s)]
  rfl

/-- To bind type variables is to substitute.  A definition whose types resolve gives the same
adapter or the same error as its instance, from every setup, and leaves the same setup
behind.  So does a signature whose types resolve.  No declaration has type variables, and a
signature with a type that does not resolve is refused. -/
theorem instantiation_exact :
    (∀ ty bindings r, Host.Ty.resolve bindings ty = .ok r ↔
      ty.Bound bindings ∧ ty.substitute bindings = r) ∧
    (∀ d : Definition σ, d.Resolves → ∀ id setup,
      (d.instantiate.build id).run setup = (d.build id).run setup) ∧
    ∀ (s : Signature) (bindings : Host.Bindings) (source : String) (c : Classification),
      (s.Resolves bindings →
        (Declaration.parse (s.substitute bindings) .empty source).run c =
          (Declaration.parse s bindings source).run c) ∧
      (∀ d, ((Declaration.parse s bindings source).run c).1 = .ok d →
        ∀ ty ∈ d.types, ty.typeVariables = []) ∧
      (¬ s.Resolves bindings →
        ∃ e, ((Declaration.parse s bindings source).run c).1 = .error e) := by
  refine ⟨fun ty bindings r => Host.Ty.resolve_eq_ok_iff, fun d => build_instantiate, ?_⟩
  intro s bindings source c
  refine ⟨fun resolves => ?_, fun d => Declaration.typeVariables_of_parse, fun open_ => ?_⟩
  · rw [Declaration.parse_substitute resolves]
  · exact Declaration.exists_parse_error open_ c

/-- A signature with open types. -/
def pull : Signature where
  name := "pull"
  params := [
    { ty := .object (.root "Organ"), role := .positional },
    { Param.argument "stops" (.array (.var "T")) with variadic := true }]
  returns := .list (.var "T")
  resultTags := [.number, .number]
  splitsResult := true

/-- A definition with an open type in a method, in a property and in its index. -/
def registers : Definition Unit where
  name := "Registers"
  target := .root "Organ"
  kind := .peripheral
  bindings := Dict.empty.insert "T" .integer
  methods := [{ signature := pull, function := .const .null }]
  properties := [{
    name := "wind"
    ty := .list (.var "T")
    index := some (.var "T")
    getter := .const .null
    setter := some (.const .null) }]

/-- The definition and its instance give the same three methods.  Without bindings the
signature is refused. -/
theorem instantiation_exact_registers :
    registers.Resolves ∧
    (∃ a, ((registers.build 0).run .initial).1 = .ok a ∧ a.methods.length = 3 ∧
      ((registers.instantiate.build 0).run .initial).1 = .ok a) ∧
    ¬ pull.Resolves .empty ∧
    ∃ e, ((Declaration.parse pull .empty "organ").run .empty).1 = .error e := by
  obtain ⟨resolution, built, read⟩ := instantiation_exact (σ := Unit)
  have resolves : registers.Resolves := by
    refine ⟨?_, (fun _ none_found => by cases none_found), ?_⟩
    · refine List.forall_mem_singleton.mpr ⟨?_, _, rfl⟩
      exact List.forall_mem_cons.mpr ⟨⟨_, rfl⟩, List.forall_mem_singleton.mpr ⟨_, rfl⟩⟩
    · refine List.forall_mem_singleton.mpr ⟨⟨_, rfl⟩, ?_⟩
      rintro _ ⟨⟩
      exact ⟨_, rfl⟩
  have unbound : ¬ pull.Resolves .empty := by
    rintro ⟨-, r, answer⟩
    obtain ⟨bound, -⟩ := (resolution _ _ _).mp answer
    obtain ⟨_, impossible, -⟩ := bound "T" (List.mem_singleton_self _)
    cases impossible
  refine ⟨resolves, ?_, unbound, (read pull .empty "organ" .empty).2.2 unbound⟩
  have three : (((registers.build 0).run .initial).1.map fun a => a.methods.length).toOption =
      some 3 := by decide +kernel
  cases answer : ((registers.build 0).run .initial).1 with
  | error e =>
      rw [answer] at three
      cases three
  | ok a =>
      rw [answer] at three
      exact ⟨a, rfl, Option.some.inj three, by rw [built registers resolves, answer]⟩

end Adapter.Definition

end HostBridge
