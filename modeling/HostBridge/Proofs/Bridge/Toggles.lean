import HostBridge.Proofs.Bridge.Run

/-!
# What toggles leave behind

A bridge keeps the groups that are disabled, and not how this came about.  What decides is
the last toggle of the pair of a group and an architecture.  Toggles of other pairs do not
matter, and neither does anything else a host does.
-/

namespace HostBridge.Bridge

variable {σ : Type}

/-- Whether the operation enables or disables a group on an architecture.  Operations on
another pair do neither. -/
def Operation.toggle? (group architecture : String) : Operation σ → Option Bool
  | .disableGroup g a => if g = group ∧ a = architecture then some false else none
  | .enableGroup g a => if g = group ∧ a = architecture then some true else none
  | _ => none

/-- What the last toggle of a group on an architecture did, if there was one. -/
def lastToggle (ops : List (Operation σ)) (group architecture : String) : Option Bool :=
  (ops.filterMap (Operation.toggle? group architecture)).getLast?

theorem lastToggle_cons (op : Operation σ) (ops : List (Operation σ))
    (group architecture : String) :
    lastToggle (op :: ops) group architecture =
      (lastToggle ops group architecture).or (op.toggle? group architecture) := by
  rw [lastToggle, lastToggle, List.filterMap_cons]
  cases op.toggle? group architecture with
  | none => simp
  | some wish => cases h : (ops.filterMap _).getLast? <;> simp [List.getLast?_cons, h]

theorem toggle_ofAnswer {α : Type} (g : Gating) (cls : Host.Class) (architecture : String)
    (r : Except BridgeError α) : (Event.ofAnswer cls architecture r : Event σ).toggle g = g := by
  rcases r with (_ | _ | _) | _ <;> rfl

/-- An operation decides about the pair it toggles, and leaves all others. -/
theorem isEnabled_toggle_perform (op : Operation σ) (b : Bridge σ) (s : σ) (g : Gating)
    (group architecture : String) :
    ((op.perform b s).1.toggle g).isEnabled group architecture =
      (op.toggle? group architecture).getD (g.isEnabled group architecture) := by
  have pair (name place : String) : (name == group && place == architecture) =
      decide (name = group ∧ place = architecture) := (Bool.decide_and ..).symm
  cases op with
  | register d =>
      rw [Operation.perform]
      rcases (Bridge.register d).run b with ⟨_ | _, _⟩ <;> rfl
  | disableGroup name place =>
      show (g.disable name place).isEnabled group architecture = _
      rw [Gating.isEnabled_disable, Operation.toggle?, pair]
      by_cases h : name = group ∧ place = architecture <;> simp [h]
  | enableGroup name place =>
      show (g.enable name place).isEnabled group architecture = _
      rw [Gating.isEnabled_enable, Operation.toggle?, pair]
      by_cases h : name = group ∧ place = architecture <;> simp [h]
  | methodTable o place =>
      exact congrArg (Gating.isEnabled · group architecture) (toggle_ofAnswer ..)
  | call o place name args =>
      exact congrArg (Gating.isEnabled · group architecture) (toggle_ofAnswer ..)
  | callWith env o name args =>
      exact congrArg (Gating.isEnabled · group architecture) (toggle_ofAnswer ..)
  | invalidate => rfl
  | revalidate =>
      rw [Operation.perform]
      rcases (Bridge.revalidate b.setup).run b with ⟨_ | _, _⟩ <;> rfl

/-- After a run, a group is enabled or disabled as its last toggle left it. -/
theorem isEnabled_run (setup : Setup) (ops : List (Operation σ)) (w : Session σ)
    (group architecture : String) :
    (setupAfter setup (w.run ops).history).gating.isEnabled group architecture =
      (lastToggle ops group architecture).getD
        ((setupAfter setup w.history).gating.isEnabled group architecture) := by
  induction ops generalizing w with
  | nil => rfl
  | cons op ops ih =>
      have stepped : (setupAfter setup (w.step op).history).gating =
          (op.perform w.bridge w.host).1.toggle (setupAfter setup w.history).gating :=
        congrArg Setup.gating (setupAfter_concat setup w.history _)
      show (setupAfter setup ((w.step op).run ops).history).gating.isEnabled _ _ = _
      rw [ih, stepped, isEnabled_toggle_perform, lastToggle_cons]
      cases lastToggle ops group architecture <;> rfl

end HostBridge.Bridge
