import HostBridge.Proofs.Adapter.Verdicts

/-!
# Adapters as wholes

An adapter is built from all specifications of its definition, or not at all.  The accessors of
properties come after those given by an author, and they alone are marked (`Authored`).  What a
method inherits from its definition is said in `Completes`.

Methods that cannot be found are an exception: then there are none at all, also of those given
one by one and by properties, and the adapter is built.
-/

namespace HostBridge

variable {σ : Type}

/-! ## Flags -/

namespace Method

variable (m : Method σ)

theorem asynchronous_mem_flags : .asynchronous ∈ m.flags ↔ m.asynchronous = true := by
  cases h : m.asynchronous <;> simp [flags, h]

theorem multipleResult_mem_flags : .multipleResult ∈ m.flags ↔ m.declaration.multiple = true := by
  cases h : m.declaration.multiple <;> simp [flags, h]

theorem property_mem_flags : .property ∈ m.flags ↔ m.ofProperty = true := by
  cases h : m.ofProperty <;> simp [flags, h]

theorem composed_mem_flags : .composed ∈ m.flags ↔ m.composed = true := by
  cases h : m.composed <;> simp [flags, h]

end Method

namespace Adapter.Definition

variable {d : Definition σ} {provided : EnvTypes} {spec : MethodSpec σ}

/-! ## What is wrapped -/

/-- Only the accessors of properties are marked as such. -/
structure Authored (d : Definition σ) : Prop where
  methods : ∀ spec ∈ d.methods, spec.ofProperty = false
  found : ∀ specs, d.provider = some (.ok specs) → ∀ spec ∈ specs, spec.ofProperty = false

/-- The method is what the specification was understood as, completed by the definition. -/
structure Completes (d : Definition σ) (provided : EnvTypes) (spec : MethodSpec σ)
    (m : Method σ) : Prop where
  parsed : ∃ c,
    ((Declaration.parse spec.signature d.bindings d.sourceTag).run c).1 = .ok m.declaration
  verified : d.kind.verify m.declaration d.target provided = .ok ()
  source_eq : m.declaration.source = d.sourceTag
  function_eq : m.function = spec.function
  /-- What the specification says comes before the default. -/
  asynchronous : .asynchronous ∈ m.flags ↔ spec.asynchronous.getD d.asynchronous = true
  group_eq : m.group = spec.group.or d.group
  /-- Architectures are excluded by both. -/
  excluded : ∀ architecture,
    architecture ∈ m.excluded ↔ architecture ∈ d.excluded ∨ architecture ∈ spec.excluded
  composed : .composed ∈ m.flags ↔ d.kind = .composed
  multipleResult : .multipleResult ∈ m.flags ↔ spec.signature.MultiValued m.declaration.returns

theorem groupOf_eq (d : Definition σ) (spec : MethodSpec σ) :
    d.groupOf spec = spec.group.or d.group := by
  rw [groupOf]
  cases spec.group <;> rfl

theorem completes_of_understands {id : Nat} {m : Method σ} (accepted : d.Accepts provided spec)
    (h : d.Understands id spec m) : d.Completes provided spec m := by
  obtain ⟨place, c, declaration, parsed, rfl⟩ := h
  obtain ⟨declaration', parsed', verified⟩ := accepted c
  cases parsed.symm.trans parsed'
  have reflects := Declaration.reflects_of_parse parsed
  refine ⟨⟨c, parsed⟩, verified, reflects.source_eq, rfl, ?_, d.groupOf_eq spec, ?_, ?_, ?_⟩
  · rw [Method.asynchronous_mem_flags]
    rfl
  · exact fun architecture => List.mem_append
  · rw [Method.composed_mem_flags]
    exact decide_eq_true_iff
  · rw [Method.multipleResult_mem_flags]
    exact reflects.multiple_iff

/-- The adapter is made of all specifications, of which the first ones were given by an author
and the others are accessors. -/
structure Assembles (d : Definition σ) (provided : EnvTypes)
    (authored generated : List (MethodSpec σ)) (a : Adapter σ) : Prop where
  name_eq : a.name = d.name
  source_eq : a.source = d.sourceTag
  target_eq : a.target = d.target
  kind_eq : a.kind = d.kind
  methods : List.Forall₂ (d.Completes provided) (authored ++ generated) a.methods
  property : ∀ i m, a.methods[i]? = some m → (.property ∈ m.flags ↔ authored.length ≤ i)

theorem assembles_of_wrapAll {id : Nat} {s : Setup} {given generated : List (MethodSpec σ)}
    {ms : List (Method σ)} (own : ∀ spec ∈ given, spec.ofProperty = false)
    (made : ∀ spec ∈ generated, spec.ofProperty = true)
    (h : ((d.wrapAll id 0 (given ++ generated)).run s).1 = .ok ms) :
    d.Assembles (s.envTypes d.kind) given generated
      { id, name := d.name, source := d.sourceTag, target := d.target, kind := d.kind,
        methods := ms } := by
  have understood := understands_of_wrapAll h
  have accepted := exists_wrapAll_iff.mp ⟨ms, h⟩
  refine ⟨rfl, rfl, rfl, rfl, ?_, fun i m hm => ?_⟩
  · have both := (List.forall₂_and_left _ _).mpr ⟨accepted, understood⟩
    exact both.imp fun spec m ⟨accepts, understands⟩ => completes_of_understands accepts understands
  · obtain ⟨spec, hs, place, -, declaration, -, rfl⟩ := exists_getElem?_of_forall₂ understood.flip hm
    rw [Method.property_mem_flags]
    show spec.ofProperty = true ↔ _
    rcases Nat.lt_or_ge i given.length with before | after
    · rw [List.getElem?_append_left before] at hs
      rw [own spec (List.mem_of_getElem? hs)]
      exact iff_of_false Bool.false_ne_true (Nat.not_le_of_lt before)
    · rw [List.getElem?_append_right after] at hs
      exact iff_of_true (made spec (List.mem_of_getElem? hs)) after

theorem exists_build_iff {id : Nat} {s : Setup} :
    (∃ a, ((d.build id).run s).1 = .ok a) ↔
      ∀ spec ∈ (d.specs s).1, d.Accepts (s.envTypes d.kind) spec := by
  have wraps : (∃ ms, ((d.wrapAll id 0 (d.specs s).1).run (d.specs s).2).1 = .ok ms) ↔ _ :=
    exists_wrapAll_iff
  rw [fst_run_build, ← (d.agrees_specs s).envTypes, ← wraps]
  constructor
  · rintro ⟨a, built⟩
    obtain ⟨ms, wrapped, -⟩ := map_eq_ok.mp built
    exact ⟨ms, wrapped⟩
  · rintro ⟨ms, wrapped⟩
    exact ⟨_, map_eq_ok.mpr ⟨ms, wrapped, rfl⟩⟩

/-- Definitions whose methods cannot be found give adapters without methods.  Others give an
adapter with one method for each specification if all are accepted, and otherwise the error
names the first one that is not, with the reason. -/
theorem build_wholly {d : Definition σ} (authored : d.Authored) (id : Nat) (s : Setup) :
    let answer := ((d.build id).run s).1
    let provided := s.envTypes d.kind
    (∀ reason, d.provider = some (.error reason) → ∃ a, answer = .ok a ∧ a.methods = []) ∧
    ∀ found, d.provider.getD (.ok []) = .ok found →
      let given := d.methods ++ found
      let generated := (d.generate s.classification).1.flatten
      ((∃ a, answer = .ok a) ↔ ∀ spec ∈ given ++ generated, d.Accepts provided spec) ∧
      (∀ a, answer = .ok a → d.Assembles provided given generated a) ∧
      ∀ e, answer = .error e → d.RefusesFirst provided (given ++ generated) e := by
  dsimp only
  constructor
  · intro reason failed
    have unknown : d.provider.getD (.ok []) = .error reason := by rw [failed]; rfl
    rw [fst_run_build, specs_of_error unknown]
    exact ⟨_, rfl, rfl⟩
  · intro found provider
    have own : ∀ spec ∈ d.methods ++ found, spec.ofProperty = false := by
      refine List.forall_mem_append.mpr ⟨authored.methods, ?_⟩
      cases hp : d.provider with
      | none =>
          rw [hp] at provider
          cases provider
          exact List.forall_mem_nil _
      | some answer =>
          rw [hp] at provider
          exact authored.found found (hp.trans (congrArg some provider))
    have specs := congrArg Prod.fst (specs_of_ok provider s)
    refine ⟨?_, fun a built => ?_, fun e failed => ?_⟩
    · rw [exists_build_iff, specs]
    · rw [fst_run_build, specs, map_eq_ok] at built
      obtain ⟨ms, wrapped, rfl⟩ := built
      rw [← (d.agrees_specs s).envTypes]
      exact assembles_of_wrapAll own (d.ofProperty_of_mem_generate _) wrapped
    · rw [fst_run_build, specs] at failed
      rw [← (d.agrees_specs s).envTypes]
      exact refusesFirst_of_wrapAll (map_eq_error.mp failed)

/-- A method of an organ without arguments. -/
def blow : Signature where
  name := "blow"
  params := [{ ty := .object (.root "Organ"), role := .positional }]

/-- A definition with a method of each origin. -/
def windchest : Definition Unit where
  name := "Windchest"
  target := .root "Organ"
  kind := .peripheral
  asynchronous := true
  group := some "wind"
  excluded := ["opencomputers"]
  methods := [{ signature := blow, function := .const .null, asynchronous := some false }]
  provider := some (.ok [{
    signature := { blow with name := "vent" }
    function := .const .null
    group := some "valves"
    excluded := ["computercraft"] }])
  properties := [{ name := "pressure", ty := .integer, getter := .const .null }]

/-- The definition when some of its methods cannot be found. -/
def sealed : Definition Unit := { windchest with provider := some (.error "no blueprint") }

/-- The definition with a method that needs a target of another class. -/
def misplaced : Definition Unit := { windchest with target := .root "Harp" }

/-- All three methods, then none, then an error about one of them. -/
theorem build_wholly_windchest :
    (windchest.Authored ∧ ∃ a, ((windchest.build 0).run .initial).1 = .ok a ∧
      a.methods.length = 3 ∧ ∃ m, a.methods[2]? = some m ∧ .property ∈ m.flags) ∧
    (sealed.Authored ∧ ∃ a, ((sealed.build 0).run .initial).1 = .ok a ∧ a.methods = []) ∧
    misplaced.Authored ∧ ∃ (spec : MethodSpec Unit) (cause : WrapCause),
      ((misplaced.build 0).run .initial).1 =
        .error (.wrap "Windchest" spec.signature.name cause) := by
  have marked (d : Definition Unit) (methods : d.methods = windchest.methods)
      (provider : d.provider = windchest.provider) : d.Authored := by
    refine ⟨methods ▸ List.forall_mem_singleton.mpr rfl, fun specs found => ?_⟩
    cases provider.symm.trans found
    exact List.forall_mem_singleton.mpr rfl
  have own := marked windchest rfl rfl
  have own' : sealed.Authored := ⟨own.methods, fun specs found => by cases found⟩
  have own'' := marked misplaced rfl rfl
  refine ⟨⟨own, ?_⟩, ⟨own', (build_wholly own' 0 .initial).1 _ rfl⟩, own'', ?_⟩
  · have whole := (build_wholly own 0 .initial).2 _ rfl
    have succeeds : ((windchest.build 0).run .initial).1.isOk = true := by decide +kernel
    cases answer : ((windchest.build 0).run .initial).1 with
    | error e =>
        rw [answer] at succeeds
        cases succeeds
    | ok a =>
        have assembled := whole.2.1 a answer
        have three : a.methods.length = 3 := assembled.methods.length_eq.symm
        obtain ⟨m, hm⟩ : ∃ m, a.methods[2]? = some m := ⟨_, List.getElem?_eq_getElem (by omega)⟩
        exact ⟨a, rfl, three, m, hm, (assembled.property 2 m hm).mpr (Nat.le_refl 2)⟩
  · have whole := (build_wholly own'' 0 .initial).2 _ rfl
    have fails : ((misplaced.build 0).run .initial).1.isOk = false := by decide +kernel
    cases answer : ((misplaced.build 0).run .initial).1 with
    | ok a =>
        rw [answer] at fails
        cases fails
    | error e =>
        obtain ⟨i, spec, cause, -, -, rfl, -⟩ := whole.2.2 e answer
        exact ⟨spec, cause, rfl⟩

end Adapter.Definition

end HostBridge
