import HostBridge.Proofs.Adapter.Revalidation
import HostBridge.Proofs.Bridge.Cache
import HostBridge.Proofs.Bridge.Registration

/-!
# Checks of what is registered

What a host supplies to methods is settled before the first registration, and no operation
changes it.  So every adapter that was registered still fits the host, and to check all of
them again succeeds at every moment of a run.

With what another host supplies, to check an adapter again answers as building its
definition there does.
-/

namespace HostBridge.Bridge

variable {σ : Type}

open Adapter (Definition)

/-- No operation changes what the host supplies. -/
theorem envTypes_run (setup : Setup) (host : σ) (ops : List (Operation σ)) :
    ((Session.start setup host).run ops).bridge.setup.envTypes = setup.envTypes :=
  ((faithful_new setup).run ops).agrees.envTypes

/-- The methods of every registered adapter fit the host. -/
theorem verified_of_registered {setup : Setup} {host : σ} {ops : List (Operation σ)} :
    ∀ a ∈ registered ((Session.start setup host).run ops).history, ∀ m ∈ a.methods,
      a.kind.verify m.declaration a.target (setup.envTypes a.kind) = .ok () := by
  induction ops using List.reverseRecOn with
  | nil => exact List.forall_mem_nil _
  | append_singleton ops op ih =>
      intro a ha m hm
      rw [Session.run_concat] at ha
      rcases registered_step ha with old | ⟨d, -, built⟩
      · exact ih a old m hm
      · rw [← envTypes_run setup host ops]
        exact (Definition.verified_of_mem_build built m hm).2

/-- To check an adapter again with a setup succeeds exactly if its definition can be built
with it, and fails with the error that building fails with.  To check all adapters of a host
again with its own setup succeeds, at every moment of a run. -/
theorem revalidate_exact :
    (∀ (d : Definition σ) id s a, ((d.build id).run s).1 = .ok a → ∀ id' s',
      (a.revalidate s' = .ok () ↔ ∃ a', ((d.build id').run s').1 = .ok a') ∧
      ∀ e, a.revalidate s' = .error e ↔ ((d.build id').run s').1 = .error e) ∧
    ∀ (setup : Setup) (host : σ) (ops : List (Operation σ)),
      let w := (Session.start setup host).run ops
      ((revalidate w.bridge.setup).run w.bridge).1 = .ok () := by
  constructor
  · intro d id s a built id' s'
    rw [Definition.revalidate_eq_build built id' s']
    cases ((d.build id').run s').1 <;> simp [Except.map]
  · intro setup host ops w
    have faithful : Faithful setup w.history w.bridge := (faithful_new setup).run ops
    have valid : w.bridge.catalogue.revalidate w.bridge.setup = .ok () := by
      refine forM_eq_ok_iff.mpr fun a ha => forM_eq_ok_iff.mpr fun m hm => ?_
      rw [faithful.adapters] at ha
      rw [envTypes_run, verified_of_registered a ha m hm]
      rfl
    rw [run_revalidate, valid]

/-- A definition with a method that needs a named value of the host, and a property of a class
type. -/
def bellows : Definition Unit where
  name := "Bellows"
  target := .root "Organ"
  kind := .peripheral
  methods := [{
    signature := {
      name := "press"
      params := [
        { ty := .object (.root "Organ"), role := .positional },
        { ty := .any, role := .env Environment.Key.computer }] }
    function := .const .null }]
  properties := [{
    name := "pressure"
    ty := .object (.root "Reading")
    getter := .const .null }]

/-- A setup that shows readings as tables. -/
def reading : Setup :=
  Setup.initial.addClassifier (.ofRows [(.root "Reading", .tag .table)])

/-- A setup that does so, and has nothing under the name. -/
def silent : Setup := reading.setEnvType .peripheral Environment.Key.computer .void

/-- The adapter passes the check with the one setup, and not with the other, where its
definition cannot be built either. -/
theorem revalidate_exact_bellows :
    ∃ a, ((bellows.build 0).run .initial).1 = .ok a ∧ a.methods.length = 2 ∧
      a.revalidate reading = .ok () ∧
      ∃ e, a.revalidate silent = .error e ∧ ((bellows.build 1).run silent).1 = .error e := by
  have two : ((bellows.build 0).run .initial).1.toOption.map (fun a => a.methods.length) =
      some 2 := by decide +kernel
  have there : ((bellows.build 1).run reading).1.isOk = true := by decide +kernel
  have not_there : ((bellows.build 1).run silent).1.isOk = false := by decide +kernel
  cases answer : ((bellows.build 0).run .initial).1 with
  | error e =>
      rw [answer] at two
      cases two
  | ok a =>
      have again := fun s => revalidate_exact.1 bellows 0 .initial a answer 1 s
      rw [answer] at two
      refine ⟨a, rfl, Option.some.inj two, (again reading).1.mpr ?_, ?_⟩
      · cases built : ((bellows.build 1).run reading).1 with
        | error e =>
            rw [built] at there
            cases there
        | ok a' => exact ⟨a', rfl⟩
      · cases built : ((bellows.build 1).run silent).1 with
        | error e => exact ⟨e, ((again silent).2 e).mpr built, rfl⟩
        | ok a' =>
            rw [built] at not_there
            cases not_there

end HostBridge.Bridge
