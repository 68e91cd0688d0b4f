import HostBridge.Proofs.Bridge.Invocation
import HostBridge.Proofs.Bridge.Revalidation
import HostBridge.Proofs.Method.MissingValues

/-!
# Values that calls of a host may lack

A host says once which named values it supplies to methods of each kind, and a method that
needs another one is never registered.  When a method is called, the host may still have
left a value out.  `Lacks` says how much can be said about such a value: it stands on the
list for the kind of the adapter, and is neither the converter nor the architecture.

Values by position are never missing.  A method takes the target by position, or nothing.
-/

namespace HostBridge.Bridge

variable {σ : Type}

open MethodTable (visible_of_shown)

/-! ## Calls that lack a value -/

/-- A method of an adapter was called in an environment without a value under a name. -/
structure Lacks (b : Bridge σ) (a : Adapter σ) (m : Method σ) (env : Environment)
    (target : Host.Value) (name : String) : Prop where
  /-- All values by position are there. -/
  positional : ∀ i < m.declaration.positional.length,
    ∃ v, Method.positionalInput env target i = .ok v
  /-- The method takes a value under the name, and there is none. -/
  absent : env.named? name = none ∧ ∃ p ∈ m.declaration.env, p.name = name
  /-- The name is not one of those that are always taken. -/
  other : name ≠ Environment.Key.converter ∧ name ≠ Environment.Key.architecture
  /-- The name is on the list of the host for the kind of the adapter. -/
  listed : name ∈ (b.setup.envTypes a.kind).keys
  /-- For accessors of properties, the list is not the one a host starts from. -/
  property : a.kind = .property →
    b.setup.envTypes .property ≠ Adapter.Kind.property.defaultEnvTypes

/-- The only value that is listed for accessors by itself is the converter. -/
theorem ne_defaultEnvTypes {provided : EnvTypes} {name : String} (listed : name ∈ provided.keys)
    (other : name ≠ Environment.Key.converter) :
    provided ≠ Adapter.Kind.property.defaultEnvTypes := by
  rintro rfl
  exact other (List.mem_singleton.mp listed)

theorem methodTable_ne_call {b : Bridge σ} {o : Host.Object} {architecture : String}
    {cause : CallError} : ((methodTable o architecture).run b).1 ≠ .error (.call cause) := by
  have looked := lookup_classTable b o.cls architecture
  rw [run_methodTable]
  intro failed
  cases hc : b.setup.converter? architecture with
  | none =>
      rw [hc] at failed
      cases failed
  | some converter =>
      rw [hc] at failed
      dsimp only at failed
      rw [failed] at looked
      cases looked

/-- A call that lacks a value has found the method in the table of the object. -/
theorem exists_inputs_of_callWith {b : Bridge σ} {env : Environment} {o : Host.Object}
    {name method lacking : String} {args : List Script.Value} {s : σ}
    (h : (b.callWith env o name args s).1 =
      .error (.call (.inMethod method (.missingEnvironment lacking)))) :
    ∃ t m, ((methodTable o env.architecture).run b).1 = .ok t ∧ t.find? name = some m ∧
      m.name = method ∧ m.inputs env (.object o) args = .error (.missingEnvironment lacking) := by
  cases ht : ((methodTable o env.architecture).run b).1 with
  | error e =>
      have failed : (b.callWith env o name args s).1 = .error e := by
        rw [callWith]
        rcases hr : (methodTable o env.architecture).run b with ⟨r, b'⟩
        rw [hr] at ht
        cases ht
        rfl
      rw [failed] at h
      cases h
      exact absurd ht methodTable_ne_call
  | ok t =>
      obtain ⟨b', called⟩ := exists_callWith_eq ht name args s
      rw [called] at h
      have failed : (t.call name env (.object o) args s).1 =
          .error (.inMethod method (.missingEnvironment lacking)) := by
        cases hr : (t.call name env (.object o) args s).1 with
        | error e =>
            rw [hr] at h
            cases h
            rfl
        | ok values =>
            rw [hr] at h
            cases h
      rw [MethodTable.call] at failed
      cases found : t.find? name with
      | none =>
          rw [found] at failed
          cases failed
      | some m =>
          rw [found] at failed
          obtain ⟨called, inputs⟩ := Method.inputs_of_call failed
          exact ⟨t, m, rfl, found, called, inputs⟩

/-- The method that was called by a name in the table of an object is one of a registered
adapter, and lacks a value. -/
def FailsFor (b : Bridge σ) (env : Environment) (o : Host.Object) (name method lacking : String) :
    Prop :=
  ∃ t m, ((methodTable o env.architecture).run b).1 = .ok t ∧ t.find? name = some m ∧
    m.name = method ∧ (∃ a ∈ b.catalogue.adapters, m ∈ a.methods) ∧
    ∀ a ∈ b.catalogue.adapters, m ∈ a.methods → b.Lacks a m env (.object o) lacking

section Run

variable {setup : Setup} {host : σ} {ops : List (Operation σ)}

/-- What a method of a registered adapter lacks is a value that the host has listed. -/
theorem lacks_of_inputs {env : Environment} (made : env.Made) {a : Adapter σ}
    (registered : a ∈ registered ((Session.start setup host).run ops).history) {m : Method σ}
    (hm : m ∈ a.methods) {target : Host.Value} {args : List Script.Value} {name : String}
    (h : m.inputs env target args = .error (.missingEnvironment name)) :
    ((Session.start setup host).run ops).bridge.Lacks a m env target name := by
  have verified := verified_of_registered a registered m hm
  rw [← envTypes_run setup host ops] at verified
  have positional := Method.exists_positionalInput_of_length_le
    (Adapter.Kind.length_positional_le verified) env target
  obtain ⟨p, param, rfl, absent⟩ := Method.exists_param_of_inputs positional h
  have other := made.ne_of_named? absent
  have listed := Adapter.Kind.mem_keys_of_verify verified p param
  refine ⟨positional, ⟨absent, p, param, rfl⟩, other, listed, fun property => ?_⟩
  rw [property] at listed
  exact ne_defaultEnvTypes listed other.1

/-- A method that describes a table lacks nothing: the converter is always there. -/
theorem inputs_ne_missing_of_describes {env : Environment} (made : env.Made) {id : Nat}
    {entries : List (MethodTable.Entry σ)} {sources : List String} {m : Method σ}
    (hm : m ∈ MethodTable.Listing.methods id entries sources) {target : Host.Value}
    {args : List Script.Value} {name : String} :
    m.inputs env target args ≠ .error (.missingEnvironment name) := by
  intro h
  obtain ⟨nothing, only⟩ := MethodTable.Listing.requires_of_mem_methods hm
  have few : m.declaration.positional.length ≤ 1 := by
    rw [nothing]
    exact Nat.zero_le 1
  have positional := Method.exists_positionalInput_of_length_le few env target
  obtain ⟨p, param, rfl, absent⟩ := Method.exists_param_of_inputs positional h
  exact (made.ne_of_named? absent).1 (only p param)

/-- A call that fails for want of a value has called a method that lacks it. -/
theorem failsFor_of_callWith {env : Environment} (made : env.Made) {o : Host.Object}
    {name method lacking : String} {args : List Script.Value} {s : σ}
    (h : (((Session.start setup host).run ops).bridge.callWith env o name args s).1 =
      .error (.call (.inMethod method (.missingEnvironment lacking)))) :
    ((Session.start setup host).run ops).bridge.FailsFor env o name method lacking := by
  have faithful : Faithful setup _ ((Session.start setup host).run ops).bridge :=
    (faithful_new setup).run ops
  obtain ⟨t, m, ht, found, called, inputs⟩ := exists_inputs_of_callWith h
  obtain ⟨cls, id, -, built⟩ := faithful.exists_build_of_methodTable ht
  have shown := ((MethodTable.shows_of_build built).sound name m found).1
  rcases visible_of_shown shown with ⟨a, ha, hm, -⟩ | ⟨entries, describes⟩
  · refine ⟨t, m, ht, found, called, ?_⟩
    rw [faithful.adapters]
    exact ⟨⟨a, mem_of_mem_serving ha, hm⟩, fun a' ha' hm' => lacks_of_inputs made ha' hm' inputs⟩
  · exact absurd inputs (inputs_ne_missing_of_describes made describes)

end Run

/-- A host starts a call in an environment that it can make, or knows no converter. -/
theorem environment_cases (b : Bridge σ) (architecture : String) :
    (∃ env, b.environment architecture = .ok env ∧ env.Made) ∨
      b.environment architecture = .error (.unknownArchitecture architecture) := by
  rw [environment, Setup.environment?]
  cases b.setup.converter? architecture with
  | none => exact .inr rfl
  | some converter => exact .inl ⟨_, rfl, .new architecture converter⟩

/-- If a call fails for want of a value, at any moment of a run and in any environment a host
can make, then what is missing is a named value that the host listed for the kind of the
adapter, and neither the converter nor the architecture.  Methods of properties lack nothing
if the host lists what it does by itself. -/
theorem missing_listed (setup : Setup) (host : σ) (ops : List (Operation σ)) :
    let b := ((Session.start setup host).run ops).bridge
    (∀ (env : Environment) o name args s method lacking, env.Made →
      (b.callWith env o name args s).1 =
        .error (.call (.inMethod method (.missingEnvironment lacking))) →
      b.FailsFor env o name method lacking) ∧
    ∀ o architecture name args s method lacking,
      (b.call o architecture name args s).1 =
        .error (.call (.inMethod method (.missingEnvironment lacking))) →
      ∃ env, b.environment architecture = .ok env ∧ b.FailsFor env o name method lacking := by
  intro b
  refine ⟨fun env o name args s method lacking made => failsFor_of_callWith made, ?_⟩
  intro o architecture name args s method lacking failed
  rw [call] at failed
  rcases b.environment_cases architecture with ⟨env, started, made⟩ | unknown
  · rw [started] at failed
    exact ⟨env, started, failsFor_of_callWith made failed⟩
  · rw [unknown] at failed
    cases failed

/-- The bellows of an organ need a computer, which is on the list of a host.  They lack one
where the host leaves it out, also if it supplies another value. -/
theorem missing_listed_bellows :
    let b := ((Session.start Setup.initial ()).run [.register bellows]).bridge
    let organ : Host.Object := ⟨.root "Organ", .store, 1⟩
    let env := (Environment.new "computercraft" (.standard [])).setNamed "speaker" (.boolean true)
    env.Made ∧
    (b.callWith env organ "press" [] ()).1 =
      .error (.call (.inMethod "press" (.missingEnvironment "computer"))) ∧
    b.FailsFor env organ "press" "press" "computer" := by
  intro b organ env
  have made : env.Made := .setNamed (.new "computercraft" (.standard [])) "speaker" (.boolean true)
  have lacking : (match (b.callWith env organ "press" [] ()).1 with
      | .error (.call (.inMethod method (.missingEnvironment name))) => some (method, name)
      | _ => none) = some ("press", "computer") := by decide +kernel
  split at lacking
  · rename_i failed
    cases lacking
    exact ⟨made, failed, (missing_listed .initial () [.register bellows]).1 env organ "press" []
      () "press" "computer" made failed⟩
  · cases lacking

end HostBridge.Bridge
