import HostBridge.Proofs.Adapter.Wrapping
import HostBridge.Proofs.Bridge.Run

/-!
# Registration

Every adapter a host has registered was built from a definition it gave, so every method
of the adapter comes from a specification of the definition.

A definition that cannot be built is not registered.  The catalogue and all decisions of
the gating stay as they were.  What does change is the list of known groups: a group
becomes known when a method of the group is wrapped, and groups are never forgotten, not
even when a later method of the definition is refused.
-/

namespace HostBridge.Bridge

variable {σ : Type}

open Adapter (Definition)

/-! ## Adapters and their definitions -/

theorem adapter?_ofAnswer {α : Type} (cls : Host.Class) (architecture : String)
    (r : Except BridgeError α) : (Event.ofAnswer cls architecture r : Event σ).adapter? = none := by
  rcases r with (_ | _ | _) | _ <;> rfl

/-- Only to register a definition registers an adapter, and it is built from the definition. -/
theorem exists_definition_of_perform {op : Operation σ} {b : Bridge σ} {s : σ} {a : Adapter σ}
    (h : (op.perform b s).1.adapter? = some a) :
    ∃ d, op = .register d ∧ ((d.build b.supply).run b.setup).1 = .ok a := by
  cases op with
  | register d =>
      rw [Operation.perform, run_register] at h
      refine ⟨d, rfl, ?_⟩
      cases hb : (d.build b.supply).run b.setup with
      | mk r s =>
          rw [hb] at h
          cases r with
          | ok a =>
              cases h
              rfl
          | error e => cases h
  | disableGroup group architecture => cases h
  | enableGroup group architecture => cases h
  | methodTable o architecture => cases (adapter?_ofAnswer ..).symm.trans h
  | call o architecture name args => cases (adapter?_ofAnswer ..).symm.trans h
  | callWith env o name args => cases (adapter?_ofAnswer ..).symm.trans h
  | invalidate => cases h
  | revalidate =>
      rw [Operation.perform] at h
      rcases hr : (revalidate b.setup).run b with ⟨_ | _, _⟩ <;> rw [hr] at h <;> cases h

/-- What is registered after a step was registered before, or is built in the step. -/
theorem registered_step {w : Session σ} {op : Operation σ} {a : Adapter σ}
    (h : a ∈ registered (w.step op).history) :
    a ∈ registered w.history ∨
      ∃ d, op = .register d ∧ ((d.build w.bridge.supply).run w.bridge.setup).1 = .ok a := by
  replace h : a ∈ registered (w.history ++ [(op.perform w.bridge w.host).1]) := h
  rw [registered_concat, List.mem_append, Option.mem_toList] at h
  exact h.imp_right exists_definition_of_perform

/-- Every adapter registered in a run is built from a definition given in the run. -/
theorem exists_definition_of_registered {ops : List (Operation σ)} {w : Session σ} {a : Adapter σ}
    (h : a ∈ registered (w.run ops).history) :
    a ∈ registered w.history ∨
      ∃ d id s, .register d ∈ ops ∧ ((d.build id).run s).1 = .ok a := by
  induction ops generalizing w with
  | nil => exact .inl h
  | cons op ops ih =>
      rcases ih (w := w.step op) h with h | ⟨d, id, s, hd, built⟩
      · rcases registered_step h with old | ⟨d, rfl, built⟩
        · exact .inl old
        · exact .inr ⟨d, _, _, List.mem_cons_self .., built⟩
      · exact .inr ⟨d, id, s, List.mem_cons_of_mem _ hd, built⟩

/-! ## Registration that fails -/

/-- A registration that fails leaves the adapters, their index, the tables kept and all
decisions of the gating as they were.  The groups known afterwards are those known before
and those of the methods wrapped before the one that was refused. -/
theorem register_refused (b : Bridge σ) (d : Definition σ) (e : BridgeError)
    (h : ((register d).run b).1 = .error e) :
    let b' := ((register d).run b).2
    b'.catalogue.adapters = b.catalogue.adapters ∧
    b'.catalogue.byTarget = b.catalogue.byTarget ∧
    b'.catalogue.tables = b.catalogue.tables ∧
    (∀ group architecture,
      b'.setup.gating.isEnabled group architecture = b.setup.gating.isEnabled group architecture) ∧
    ∃ before failing cause, d.StopsAt b.supply b.setup before failing cause ∧
      e = .registration (.wrap d.name failing.signature.name cause) ∧
      ∀ group, group ∈ b'.setup.gating.knownGroups ↔
        group ∈ b.setup.gating.knownGroups ∨ group ∈ before.filterMap d.groupOf := by
  intro b'
  have moved := d.moves_build b.supply b.setup
  have result : ((register d).run b) = _ := run_register d b
  cases hb : (d.build b.supply).run b.setup with
  | mk r s =>
      rw [hb] at result moved
      cases r with
      | ok a =>
          rw [result] at h
          cases h
      | error cause =>
          have after : b' = ⟨s, b.catalogue, b.supply + 1⟩ := congrArg Prod.snd result
          rw [result] at h
          cases h
          obtain ⟨before, failing, cause, stops, rfl, gating⟩ := Definition.build_eq_error hb
          rw [after]
          refine ⟨rfl, rfl, rfl, moved.enabled, before, failing, cause, stops, rfl, ?_⟩
          intro group
          show group ∈ s.gating.knownGroups ↔ _
          rw [gating, Gating.mem_knownGroups_mentionAll]

/-- A definition whose second method is refused.  The first one has a group. -/
def bells : Definition Unit where
  name := "Bells"
  target := .root "Tower"
  kind := .composed
  methods := [
    { signature := { name := "ring" }, function := .const .null, group := some "bells" },
    { signature := { name := "toll", returns := .var "T" }, function := .const .null }]

/-- The group of the first method is not known before the definition was refused, and is
known afterwards.  So not everything stays as it was. -/
theorem not_register_atomic :
    ¬ ∀ (setup : Setup) (host : Unit) (ops : List (Operation Unit)) (d : Definition Unit)
        (e : BridgeError),
      let b := ((Session.start setup host).run ops).bridge
      let b' := ((register d).run b).2
      ((register d).run b).1 = .error e →
        b'.catalogue = b.catalogue ∧
        (∀ group architecture, b'.setup.gating.isEnabled group architecture =
          b.setup.gating.isEnabled group architecture) ∧
        b'.setup.gating.knownGroups = b.setup.gating.knownGroups := by
  intro atomic
  have refused : ((register bells).run (new .initial)).1.isOk = false := by decide +kernel
  have known : "bells" ∈ ((register bells).run (new .initial)).2.setup.gating.disabled.keys := by
    decide +kernel
  cases hr : ((register bells).run (new .initial)).1 with
  | ok a =>
      rw [hr] at refused
      cases refused
  | error e =>
      have same : ((register bells).run (new .initial)).2.setup.gating.knownGroups =
          (new .initial : Bridge Unit).setup.gating.knownGroups :=
        (atomic .initial () [] bells e hr).2.2
      rw [← Gating.mem_knownGroups, same, Gating.mem_knownGroups] at known
      cases known

/-- A definition that is registered, in another group. -/
def winds : Definition Unit where
  name := "Winds"
  target := .root "Tower"
  kind := .composed
  group := some "winds"
  methods := [{ signature := { name := "blow" }, function := .const .null }]

/-- A host that has registered one definition, hidden its group and looked up a table. -/
def tower : Bridge Unit :=
  ((Session.start Setup.initial ()).run [
    .register winds,
    .disableGroup "winds" "computercraft",
    .methodTable ⟨.root "Tower", .store, 1⟩ "computercraft"]).bridge

/-- The other definition is refused there too.  The table is still kept and the group still
hidden. -/
theorem register_refused_bells :
    ∃ e, ((register bells).run tower).1 = .error e ∧
      ((register bells).run tower).2.catalogue.adapters.length = 1 ∧
      ((register bells).run tower).2.catalogue.tables.size = 1 ∧
      ((register bells).run tower).2.setup.gating.isEnabled "winds" "computercraft" = false := by
  have refused : ((register bells).run tower).1.isOk = false := by decide +kernel
  cases hr : ((register bells).run tower).1 with
  | ok a =>
      rw [hr] at refused
      cases refused
  | error e =>
      obtain ⟨adapters, -, tables, enabled, -⟩ := register_refused tower bells e hr
      refine ⟨e, rfl, ?_, ?_, ?_⟩
      · rw [adapters]
        decide +kernel
      · rw [tables]
        decide +kernel
      · rw [enabled]
        decide +kernel

end HostBridge.Bridge
