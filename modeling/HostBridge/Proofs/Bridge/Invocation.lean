import HostBridge.Proofs.Bridge.Cache
import HostBridge.Proofs.Bridge.Registration
import HostBridge.Proofs.Bridge.Toggles
import HostBridge.Proofs.MethodTable.Exactness

/-!
# Which methods run

A call runs at most one host function.  `Operation.invocation?` says which, of which
method, and with what.  `host_perform` says that this is all that ever happens to the
state of a host.

The method was found in a table, and the table shows visible methods only.  A table that
was kept is no exception, since it would be built again from the adapters and the gating
of the moment.  So a method that runs is either one that describes the table or one that
its definition and the toggles so far let scripts see.
-/

namespace HostBridge.Bridge

variable {σ : Type}

open Adapter (Definition)
open MethodTable (Unused visible_of_shown)

/-! ## Invocations -/

/-- A host function at work. -/
structure Invocation (σ : Type) where
  /-- The method the function belongs to. -/
  method : Method σ
  /-- The architecture of the environment. -/
  architecture : String
  /-- What the function is called with. -/
  call : Call

/-- What runs if a method of an object is called by name in an environment. -/
def invocation? (b : Bridge σ) (env : Environment) (o : Host.Object) (name : String)
    (args : List Script.Value) : Option (Invocation σ) :=
  match ((methodTable o env.architecture).run b).1 with
  | .error _ => none
  | .ok t =>
      match t.find? name with
      | none => none
      | some m =>
          match m.inputs env (.object o) args with
          | .error _ => none
          | .ok values => some ⟨m, env.architecture, ⟨values, env.converter⟩⟩

/-- What runs in an operation. -/
def Operation.invocation? (b : Bridge σ) : Operation σ → Option (Invocation σ)
  | .call o architecture name args =>
      match b.environment architecture with
      | .error _ => none
      | .ok env => b.invocation? env o name args
  | .callWith env o name args => b.invocation? env o name args
  | _ => none

/-- The state of the host after an invocation. -/
def hostAfter (s : σ) : Option (Invocation σ) → σ
  | none => s
  | some i => (i.method.function i.call s).2

theorem host_method (m : Method σ) (env : Environment) (target : Host.Value)
    (args : List Script.Value) (s : σ) :
    (m.call env target args s).2 =
      match m.inputs env target args with
      | .error _ => s
      | .ok values => (m.function ⟨values, env.converter⟩ s).2 := by
  rw [Method.call]
  cases m.inputs env target args with
  | error fault => rfl
  | ok values =>
      dsimp only
      rcases m.function ⟨values, env.converter⟩ s with ⟨_ | _, _⟩ <;> rfl

theorem host_callWith (b : Bridge σ) (env : Environment) (o : Host.Object) (name : String)
    (args : List Script.Value) (s : σ) :
    (b.callWith env o name args s).2.2 = hostAfter s (b.invocation? env o name args) := by
  rw [callWith, invocation?]
  rcases (methodTable o env.architecture).run b with ⟨e | t, b'⟩
  · rfl
  · obtain ⟨b'', -, settled⟩ := settle_cases b' (t.call name env (.object o) args s)
    dsimp only
    rw [settled, MethodTable.call]
    cases t.find? name with
    | none => rfl
    | some m =>
        rw [MethodTable.callMethod, host_method]
        dsimp only
        cases m.inputs env (.object o) args <;> rfl

/-- An operation changes the state of the host by what runs in it, and not otherwise. -/
theorem host_perform (op : Operation σ) (b : Bridge σ) (s : σ) :
    (op.perform b s).2.2 = hostAfter s (op.invocation? b) := by
  cases op with
  | call o architecture name args =>
      show (b.call o architecture name args s).2.2 = _
      rw [call, Operation.invocation?]
      cases b.environment architecture with
      | error e => rfl
      | ok env => exact host_callWith b env o name args s
  | callWith env o name args => exact host_callWith b env o name args s
  | register d =>
      rw [Operation.perform]
      rcases (Bridge.register d).run b with ⟨_ | _, _⟩ <;> rfl
  | revalidate =>
      rw [Operation.perform]
      rcases (Bridge.revalidate b.setup).run b with ⟨_ | _, _⟩ <;> rfl
  | _ => rfl

/-! ## What is found -/

theorem exists_table_of_invocation {b : Bridge σ} {env : Environment} {o : Host.Object}
    {name : String} {args : List Script.Value} {i : Invocation σ}
    (h : b.invocation? env o name args = some i) :
    ∃ t, ((methodTable o env.architecture).run b).1 = .ok t ∧ t.find? name = some i.method ∧
      i.architecture = env.architecture := by
  rw [invocation?] at h
  cases ht : ((methodTable o env.architecture).run b).1 with
  | error e =>
      rw [ht] at h
      cases h
  | ok t =>
      simp only [ht] at h
      cases hm : t.find? name with
      | none =>
          simp only [hm] at h
          cases h
      | some m =>
          simp only [hm] at h
          cases hi : m.inputs env (.object o) args with
          | error fault =>
              simp only [hi] at h
              cases h
          | ok values =>
              simp only [hi] at h
              cases h
              exact ⟨t, rfl, hm, rfl⟩

/-- What runs in an operation was found in the table of an object on the architecture. -/
theorem exists_table_of_operation {b : Bridge σ} {op : Operation σ} {i : Invocation σ}
    (h : op.invocation? b = some i) :
    ∃ o name t, ((methodTable o i.architecture).run b).1 = .ok t ∧
      t.find? name = some i.method := by
  have found {env : Environment} {o : Host.Object} {name : String} {args : List Script.Value}
      (h : b.invocation? env o name args = some i) :
      ∃ o name t, ((methodTable o i.architecture).run b).1 = .ok t ∧
        t.find? name = some i.method := by
    obtain ⟨t, ht, hm, ha⟩ := exists_table_of_invocation h
    rw [ha]
    exact ⟨o, name, t, ht, hm⟩
  cases op with
  | call o architecture name args =>
      rw [Operation.invocation?] at h
      cases he : b.environment architecture with
      | error e =>
          rw [he] at h
          cases h
      | ok env =>
          rw [he] at h
          exact found h
  | callWith env o name args => exact found h
  | _ => cases h

/-- A table that is looked up would be built from the adapters and the gating of the
moment, for a class with the identity of the one it is looked up for. -/
theorem Faithful.exists_class {setup : Setup} {history : List (Event σ)} {b b' : Bridge σ}
    (h : Faithful setup history b) {cls : Host.Class} {architecture : String} {t : MethodTable σ}
    (hl : Lookup b cls architecture (.ok t) b') :
    ∃ cls' ∈ cls :: Bridge.lookedUp history, cls'.id = cls.id ∧
      ∃ id, Unused id (Bridge.registered history) ∧
        ((MethodTable.build id cls' architecture (serving (Bridge.registered history) cls')).run
          (setupAfter setup history)).1 = .ok t := by
  cases hl with
  | kept hk =>
      obtain ⟨cls', looked, same, built⟩ := h.current _ _ hk
      exact ⟨cls', List.mem_cons_of_mem _ looked, same, built⟩
  | built hn hb hs =>
      exact ⟨cls, List.mem_cons_self .., rfl, b.supply, h.unused, (h.fst_run_build ..).symm.trans hb⟩

/-- So would be the table an object is answered with. -/
theorem Faithful.exists_class_of_methodTable {setup : Setup} {history : List (Event σ)}
    {b : Bridge σ} (h : Faithful setup history b) {o : Host.Object} {architecture : String}
    {t : MethodTable σ} (ht : ((methodTable o architecture).run b).1 = .ok t) :
    ∃ cls ∈ o.cls :: Bridge.lookedUp history, cls.id = o.cls.id ∧
      ∃ id, Unused id (Bridge.registered history) ∧
        ((MethodTable.build id cls architecture (serving (Bridge.registered history) cls)).run
          (setupAfter setup history)).1 = .ok t := by
  have looked := lookup_classTable b o.cls architecture
  rw [run_methodTable] at ht
  cases hc : b.setup.converter? architecture with
  | none =>
      rw [hc] at ht
      cases ht
  | some converter =>
      rw [hc] at ht
      dsimp only at ht
      rw [ht] at looked
      exact h.exists_class looked

theorem Faithful.exists_build_of_methodTable {setup : Setup} {history : List (Event σ)}
    {b : Bridge σ} (h : Faithful setup history b) {o : Host.Object} {architecture : String}
    {t : MethodTable σ} (ht : ((methodTable o architecture).run b).1 = .ok t) :
    ∃ cls id, Unused id (Bridge.registered history) ∧
      ((MethodTable.build id cls architecture (serving (Bridge.registered history) cls)).run
        (setupAfter setup history)).1 = .ok t := by
  obtain ⟨cls, -, -, built⟩ := h.exists_class_of_methodTable ht
  exact ⟨cls, built⟩

/-! ## What is visible -/

theorem visible_iff {m : Method σ} {architecture : String} {g : Gating} :
    m.visible architecture g = true ↔ architecture ∉ m.excluded ∧
      ∀ group, m.group = some group → g.isEnabled group architecture = true := by
  unfold Method.visible
  cases m.group <;> simp

/-- The method of a specification may be called on an architecture, as far as its
definition and the toggles of a run go. -/
structure Permitted (setup : Setup) (ops : List (Operation σ)) (architecture : String)
    (d : Definition σ) (spec : MethodSpec σ) : Prop where
  /-- The definition does not exclude the architecture. -/
  definition : architecture ∉ d.excluded
  /-- The specification does not exclude it either. -/
  specification : architecture ∉ spec.excluded
  /-- If there is a group, the last toggle enabled it on the architecture, or there was no
  toggle and it was enabled from the start. -/
  group : ∀ group, (spec.group <|> d.group) = some group →
    (lastToggle ops group architecture).getD (setup.gating.isEnabled group architecture) = true

/-- What runs in an operation is of a method that describes the table or of a method of a
registered adapter that may be called.  And nothing else happens to the host. -/
theorem invocation_permitted (setup : Setup) (host : σ) (ops : List (Operation σ))
    (op : Operation σ) :
    let w := (Session.start setup host).run ops
    (∀ s, (op.perform w.bridge s).2.2 = hostAfter s (op.invocation? w.bridge)) ∧
    ∀ i, op.invocation? w.bridge = some i →
      (∃ id entries sources, Unused id (Bridge.registered w.history) ∧
        i.method ∈ MethodTable.Listing.methods id entries sources) ∨
      ∃ a ∈ Bridge.registered w.history, i.method ∈ a.methods ∧
        ∃ d id s, .register d ∈ ops ∧ ((d.build id).run s).1 = .ok a ∧
          ∃ spec ∈ (d.specs s).1, ∃ place declaration,
            i.method = d.method id place spec declaration ∧
            Permitted setup ops i.architecture d spec := by
  intro w
  refine ⟨host_perform op w.bridge, ?_⟩
  intro i h
  have faithful : Faithful setup w.history w.bridge := (faithful_new setup).run ops
  obtain ⟨o, name, t, ht, hm⟩ := exists_table_of_operation h
  -- The table is one that would be built now, whether or not it was kept.
  obtain ⟨cls, id, unused, built⟩ := faithful.exists_build_of_methodTable ht
  have shown := ((MethodTable.shows_of_build built).sound name i.method hm).1
  rcases visible_of_shown shown with ⟨a, ha, hma, visible⟩ | ⟨entries, describes⟩
  · have registered := mem_of_mem_serving ha
    refine .inr ⟨a, registered, hma, ?_⟩
    rcases exists_definition_of_registered registered with none | ⟨d, id, s, hd, hb⟩
    · cases none
    · obtain ⟨spec, hs, place, declaration, method⟩ :=
        Definition.exists_spec_of_mem_build hb i.method hma
      refine ⟨d, id, s, hd, hb, spec, hs, place, declaration, method, ?_⟩
      obtain ⟨excluded, enabled⟩ := visible_iff.mp visible
      rw [method] at excluded enabled
      replace excluded : i.architecture ∉ d.excluded ++ spec.excluded := excluded
      rw [List.mem_append, not_or] at excluded
      refine ⟨excluded.1, excluded.2, fun group hg => ?_⟩
      have toggled := isEnabled_run setup ops (Session.start setup host) group i.architecture
      exact toggled.symm.trans (enabled group hg)
  · exact .inl ⟨id, entries, _, unused, describes⟩

/-- A definition whose only method has a group of its own, and counts its calls. -/
def chime : Definition Nat where
  name := "Chime"
  target := bell.cls
  kind := .composed
  group := some "quiet"
  excluded := ["opencomputers"]
  methods := [{
    signature := { name := "ring" }
    function := fun _ count => (.ok .null, count + 1)
    group := some "loud" }]

/-- The group of the method is hidden and shown again, and the other one is hidden. -/
def chimeOperations : List (Operation Nat) := [
  .register chime,
  .disableGroup "loud" "computercraft",
  .methodTable bell "computercraft",
  .enableGroup "loud" "computercraft",
  .disableGroup "quiet" "computercraft",
  .disableGroup "loud" "opencomputers"]

/-- The method runs, and it may. -/
theorem invocation_permitted_chime :
    let w := (Session.start Setup.initial 0).run chimeOperations
    let op := Operation.call bell "computercraft" "ring" []
    ∃ i, op.invocation? w.bridge = some i ∧ i.method.name = "ring" ∧
      (op.perform w.bridge w.host).2.2 = 1 ∧
      ∃ a ∈ Bridge.registered w.history, i.method ∈ a.methods ∧
        ∃ d spec, .register d ∈ chimeOperations ∧
          Permitted Setup.initial chimeOperations i.architecture d spec := by
  intro w op
  have permitted := invocation_permitted Setup.initial 0 chimeOperations op
  have named : (op.invocation? w.bridge).map (fun i => i.method.name) = some "ring" := by
    decide +kernel
  obtain ⟨i, hi, name⟩ := Option.map_eq_some_iff.mp named
  have counted : (op.perform w.bridge w.host).2.2 = 1 := by decide +kernel
  refine ⟨i, hi, name, counted, ?_⟩
  rcases permitted.2 i hi with ⟨id, entries, sources, -, describes⟩ |
    ⟨a, ha, hm, d, id, s, hd, -, spec, -, place, declaration, -, may⟩
  · -- The methods that describe the table have other names.
    have other := List.mem_map_of_mem (f := Method.name) describes
    rw [MethodTable.Listing.map_name_methods, name] at other
    exact absurd other (by decide)
  · exact ⟨a, ha, hm, d, spec, hd, may⟩

end HostBridge.Bridge
