import HostBridge.Proofs.Adapter.Building
import HostBridge.Proofs.MethodTable.Exposure

/-!
# The adapter that describes a table

The definition of the three describing methods always gives the same adapter, up to
its identity and what the methods speak of.  None of them takes an argument of the
script, so to understand them needs no classification.  One needs a converter object
from the host, and this is the only reason why the adapter may be refused.

The three names differ, and the methods are of an adapter that no other method is
of.  So a table with them is built in two stages: first the table without them is made,
which they speak of, and then their entries are added to it.
-/

namespace HostBridge.MethodTable.Listing

variable {σ : Type}

/-! ## The methods -/

/-- The parameter for the converter. -/
def converterParam : EnvParam := ⟨Environment.Key.converter, .object Converter.objectClass, 0⟩

/-- A method without arguments, as it is understood. -/
def declared (s : Signature) (env : List EnvParam) : Declaration where
  name := s.name
  description := s.description
  source := adapterName
  aliases := []
  positional := []
  env
  arguments := []
  returns := s.returns
  resultTags := s.resultTags
  multiple := false

/-- A describing method, at a place of the adapter. -/
def method (id place : Nat) (spec : MethodSpec σ) (env : List EnvParam) : Method σ where
  id := ⟨id, place⟩
  declaration := declared spec.signature env
  function := spec.function
  asynchronous := true
  composed := true

/-- The three methods. -/
def methods (id : Nat) (entries : List (Entry σ)) (sources : List String) : List (Method σ) := [
  method id 0 (namesSpec entries) [],
  method id 1 (sourcesSpec sources) [],
  method id 2 (descriptionsSpec entries) [converterParam]]

theorem map_name_methods (id : Nat) (entries : List (Entry σ)) (sources : List String) :
    (methods id entries sources).map Method.name = names := rfl

/-- The three methods have the identity they were built under. -/
theorem adapter_of_mem_methods {id : Nat} {entries : List (Entry σ)} {sources : List String}
    {m : Method σ} (h : m ∈ methods id entries sources) : m.id.adapter = id := by
  simp only [methods, List.mem_cons, List.not_mem_nil, or_false] at h
  rcases h with rfl | rfl | rfl <;> rfl

/-- They take no value of the host but the converter. -/
theorem requires_of_mem_methods {id : Nat} {entries : List (Entry σ)} {sources : List String}
    {m : Method σ} (h : m ∈ methods id entries sources) :
    m.declaration.positional = [] ∧
      ∀ p ∈ m.declaration.env, p.name = Environment.Key.converter := by
  simp only [methods, List.mem_cons, List.not_mem_nil, or_false] at h
  rcases h with rfl | rfl | rfl
  · exact ⟨rfl, List.forall_mem_nil _⟩
  · exact ⟨rfl, List.forall_mem_nil _⟩
  · exact ⟨rfl, List.forall_mem_singleton.mpr rfl⟩

/-- The adapter of the three methods. -/
def adapter (id : Nat) (target : Host.Class) (entries : List (Entry σ)) (sources : List String) :
    Adapter σ where
  id
  name := adapterName
  source := adapterName
  target
  kind := .composed
  methods := methods id entries sources

/-! ## What the host must supply -/

/-- What the host lacks for the describing methods, if anything. -/
def lack (s : Setup) : Option RequirementFault :=
  Declaration.envFault? (s.envTypes .composed) converterParam

/-- What the host lacks depends on the named values and on nothing else. -/
theorem lack_congr {s s' : Setup} (h : s.Agrees s') : lack s' = lack s := by
  rw [lack, lack, h.envTypes]

/-- A host that supplies a converter lacks nothing. -/
theorem lack_eq_none {s : Setup} {got : Host.Ty}
    (h : (s.envTypes .composed).find? Environment.Key.converter = some got)
    (ha : (Host.Ty.object Converter.objectClass).accepts got = true) : lack s = none := by
  have found : (s.envTypes .composed).find? converterParam.name = some got := h
  rw [lack, Declaration.envFault?, found]
  exact if_pos ha

/-- The setup a host starts from lacks nothing. -/
theorem lack_initial : lack Setup.initial = none := by
  refine lack_eq_none ?_ (by rw [Host.Ty.accepts]; exact Host.Class.isA_self _)
  simp [Setup.initial, Adapter.Kind.defaultEnvTypes, Dict.ofList, Dict.find?_insert,
    Environment.Key.context, Environment.Key.converter]

/-- Why the adapter is refused, given what the host lacks. -/
def refusal (fault : RequirementFault) : RegistrationError :=
  .wrap adapterName describeMethods (.requirement ⟨describeMethods, fault⟩)

/-- Without parameters, nothing is required. -/
theorem verify_declared_nil (s : Signature) (target : Host.Class) (provided : EnvTypes) :
    Adapter.Kind.composed.verify (declared s []) target provided = .ok () := rfl

theorem verify_descriptions (entries : List (Entry σ)) (target : Host.Class) (s : Setup) :
    Adapter.Kind.composed.verify (declared (descriptionsSpec entries).signature [converterParam])
        target (s.envTypes .composed) =
      match lack s with
      | none => .ok ()
      | some fault => .error ⟨describeMethods, fault⟩ := by
  have only : (declared (descriptionsSpec entries).signature [converterParam]).env.findSome?
      (Declaration.envFault? (s.envTypes .composed)) = lack s := List.findSome?_singleton
  show Declaration.checkEnv _ _ = _
  rw [Declaration.checkEnv, only]
  cases lack s <;> rfl

/-- The describing methods fit the host exactly if it lacks nothing. -/
theorem verify_methods_iff (id : Nat) (target : Host.Class) (entries : List (Entry σ))
    (sources : List String) (s : Setup) :
    (∀ m ∈ methods id entries sources,
      Adapter.Kind.composed.verify m.declaration target (s.envTypes .composed) = .ok ()) ↔
    lack s = none := by
  simp only [methods, method, List.forall_mem_cons, List.not_mem_nil, false_implies, implies_true,
    and_true, verify_declared_nil, true_and, verify_descriptions]
  cases lack s <;> simp

/-! ## Building the adapter -/

section Build

variable (id : Nat) (target : Host.Class) (entries : List (Entry σ)) (sources : List String)

theorem specs_definition (s : Setup) :
    (definition target entries sources).specs s =
      ([namesSpec entries, sourcesSpec sources, descriptionsSpec entries], s) := rfl

theorem fst_run_wrap_names (s : Setup) :
    (((definition target entries sources).wrap id 0 (namesSpec entries)).run s).1 =
      .ok (method id 0 (namesSpec entries) []) := by
  rw [Adapter.Definition.fst_run_wrap_of_parse _ _ _ _ (declared (namesSpec entries).signature [])
    rfl]
  rfl

theorem fst_run_wrap_sources (s : Setup) :
    (((definition target entries sources).wrap id 1 (sourcesSpec sources)).run s).1 =
      .ok (method id 1 (sourcesSpec sources) []) := by
  rw [Adapter.Definition.fst_run_wrap_of_parse _ _ _ _ (declared (sourcesSpec sources).signature [])
    rfl]
  rfl

theorem fst_run_wrap_descriptions (s : Setup) :
    (((definition target entries sources).wrap id 2 (descriptionsSpec entries)).run s).1 =
      match lack s with
      | none => .ok (method id 2 (descriptionsSpec entries) [converterParam])
      | some fault => .error (refusal fault) := by
  have verified := verify_descriptions entries target s
  rw [Adapter.Definition.fst_run_wrap_of_parse _ _ _ _
    (declared (descriptionsSpec entries).signature [converterParam]) rfl]
  simp only [definition, verified]
  cases lack s <;> rfl

/-- The three methods are the adapter, unless the host lacks something. -/
theorem fst_run_build (s : Setup) :
    (((definition target entries sources).build id).run s).1 =
      match lack s with
      | none => .ok (adapter id target entries sources)
      | some fault => .error (refusal fault) := by
  have first := (definition target entries sources).moves_wrap id 0 (namesSpec entries) s
  have second := (definition target entries sources).moves_wrap id 1 (sourcesSpec sources)
    (((definition target entries sources).wrap id 0 (namesSpec entries)).run s).2
  rw [Adapter.Definition.fst_run_build, specs_definition,
    Adapter.Definition.fst_run_wrapAll_cons, fst_run_wrap_names]
  show ((((definition target entries sources).wrapAll id 1 _).run _).1.map _).map _ = _
  rw [Adapter.Definition.fst_run_wrapAll_cons, fst_run_wrap_sources]
  show (((((definition target entries sources).wrapAll id 2 _).run _).1.map _).map _).map _ = _
  rw [Adapter.Definition.fst_run_wrapAll_cons, fst_run_wrap_descriptions,
    lack_congr (first.trans second)]
  cases lack s <;> rfl

end Build

end HostBridge.MethodTable.Listing
