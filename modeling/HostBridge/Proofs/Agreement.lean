import HostBridge.MethodTable
import HostBridge.Proofs.Running

/-!
# Setups that agree

To build adapters and tables leaves traces in the setup: kept shapes, groups that
were mentioned, lines in the log.  None of them decides anything later.  Two setups
*agree* if they have the same groups enabled, the same converters and named values,
and the same wish for describing methods.  They may differ in the rest.

`moves_build` of definitions and `moves_build` of tables say that building leads to
a setup that agrees with the one before, also when it fails.
-/

namespace HostBridge

/-- The setups differ in kept shapes, mentioned groups and the log at most. -/
structure Setup.Agrees (s s' : Setup) : Prop where
  enabled : ∀ group architecture,
    s'.gating.isEnabled group architecture = s.gating.isEnabled group architecture
  converters : s'.converters = s.converters
  envTypes : s'.envTypes = s.envTypes
  lists : s'.lists = s.lists

namespace Setup

theorem Agrees.refl (s : Setup) : s.Agrees s := ⟨fun _ _ => rfl, rfl, rfl, rfl⟩

theorem Agrees.symm {s s' : Setup} (h : s.Agrees s') : s'.Agrees s :=
  ⟨fun g a => (h.enabled g a).symm, h.converters.symm, h.envTypes.symm, h.lists.symm⟩

theorem Agrees.trans {s s' s'' : Setup} (h : s.Agrees s') (h' : s'.Agrees s'') : s.Agrees s'' :=
  ⟨fun g a => (h'.enabled g a).trans (h.enabled g a), h'.converters.trans h.converters,
    h'.envTypes.trans h.envTypes, h'.lists.trans h.lists⟩

instance : Std.Refl Agrees := ⟨Agrees.refl⟩

instance : Trans Agrees Agrees Agrees := ⟨Agrees.trans⟩

/-! ## Traces -/

theorem agrees_addLog (lines : List LogLine) (s : Setup) : s.Agrees (addLog lines s).2 :=
  ⟨fun _ _ => rfl, rfl, rfl, rfl⟩

theorem agrees_write (level : LogLevel) (text : String) (s : Setup) :
    s.Agrees (write level text s).2 :=
  agrees_addLog _ s

theorem agrees_classifying {α : Type} (x : StateM Classification α) (s : Setup) :
    s.Agrees (classifying x s).2 :=
  ⟨fun _ _ => rfl, rfl, rfl, rfl⟩

theorem agrees_mention (name : String) (s : Setup) :
    s.Agrees { s with gating := s.gating.mention name } :=
  ⟨Gating.isEnabled_mention s.gating name, rfl, rfl, rfl⟩

theorem moves_write {ε : Type} (level : LogLevel) (text : String) :
    Moves Agrees (monadLift (write level text) : ExceptT ε (StateM Setup) Unit) :=
  moves_monadLift (agrees_write level text)

end Setup

/-! ## Visibility -/

namespace Method

variable {σ : Type}

/-- Visibility depends on what is enabled and on nothing else. -/
theorem visible_congr {g g' : Gating} (h : ∀ n a, g'.isEnabled n a = g.isEnabled n a)
    (m : Method σ) (architecture : String) :
    m.visible architecture g' = m.visible architecture g := by
  unfold visible
  cases m.group with
  | none => rfl
  | some group => simp only [h]

/-- To find out whether scripts see a method changes no decision. -/
theorem agrees_checkVisible (m : Method σ) (architecture : String) (s : Setup) :
    s.Agrees (Setup.deciding (m.checkVisible architecture) s).2 := by
  refine ⟨fun group place => ?_, rfl, rfl, rfl⟩
  show (m.checkVisible architecture s.gating).2.isEnabled group place = _
  unfold checkVisible
  cases m.group with
  | none => cases m.excluded.contains architecture <;> rfl
  | some name =>
      cases m.excluded.contains architecture with
      | true => rfl
      | false => exact Gating.isEnabled_mention s.gating name group place

end Method

/-! ## Adapters -/

namespace Adapter.Definition

open Setup (Agrees)

variable {σ : Type}

theorem moves_declare (d : Definition σ) (spec : MethodSpec σ) :
    Moves Agrees (d.declare spec) := by
  refine moves_bind (moves_adapt (moves_mk (Setup.agrees_classifying _))) fun declaration => ?_
  refine moves_bind moves_get fun setup => ?_
  exact moves_bind (moves_ofExcept _) fun _ => moves_pure declaration

theorem moves_wrap (d : Definition σ) (id place : Nat) (spec : MethodSpec σ) :
    Moves Agrees (d.wrap id place spec) := by
  refine moves_bind (moves_adapt (d.moves_declare spec)) fun declaration => ?_
  cases d.groupOf spec with
  | none => exact moves_bind (Setup.moves_write _ _) fun _ => moves_pure _
  | some group =>
      refine moves_bind (moves_modify (Setup.agrees_mention group)) fun _ => ?_
      exact moves_bind (Setup.moves_write _ _) fun _ => moves_pure _

theorem moves_wrapAll (d : Definition σ) (id : Nat) (specs : List (MethodSpec σ)) (place : Nat) :
    Moves Agrees (d.wrapAll id place specs) := by
  induction specs generalizing place with
  | nil => exact moves_pure _
  | cons spec rest ih =>
      refine moves_bind (d.moves_wrap id place spec) fun _ => ?_
      exact moves_bind (ih (place + 1)) fun _ => moves_pure _

theorem agrees_specs (d : Definition σ) (s : Setup) : s.Agrees (d.specs s).2 := by
  have h := Setup.agrees_classifying d.enumerate s
  simp only [specs, bind, StateT.bind]
  cases hr : Setup.classifying d.enumerate s with
  | mk r s' =>
      rw [hr] at h
      cases r with
      | ok specs => exact h
      | error reason => exact h.trans (Setup.agrees_write _ _ s')

/-- To build an adapter changes no decision, whether it succeeds or fails. -/
theorem moves_build (d : Definition σ) (id : Nat) : Moves Agrees (d.build id) := by
  refine moves_bind (moves_monadLift d.agrees_specs) fun specs => ?_
  refine moves_bind (d.moves_wrapAll id specs 0) fun methods => ?_
  exact moves_bind (Setup.moves_write _ _) fun _ => moves_pure _

end Adapter.Definition

/-! ## Tables -/

namespace MethodTable

open Setup (Agrees)

variable {σ : Type}

theorem Builder.moves_addMethod (architecture : String) (a : Adapter σ) (b : Builder σ)
    (m : Method σ) : Moves Agrees (Builder.addMethod architecture a b m) := by
  refine moves_bind (moves_monadLift (m.agrees_checkVisible architecture)) fun visible => ?_
  refine moves_ite (moves_ofExcept _) ?_
  exact moves_bind (Setup.moves_write _ _) fun _ => moves_pure _

theorem Builder.moves_addAdapter (architecture : String) (b : Builder σ) (a : Adapter σ) :
    Moves Agrees (Builder.addAdapter architecture b a) :=
  moves_foldlM (Builder.moves_addMethod architecture a) a.methods b

theorem moves_addListing (id : Nat) (target : Host.Class) (architecture : String)
    (sources : List String) (b : Builder σ) :
    Moves Agrees (addListing id target architecture sources b) := by
  refine moves_bind moves_get fun setup => ?_
  refine moves_ite ?_ (moves_pure b)
  refine moves_bind (Adapter.Definition.moves_build _ id) fun listing => ?_
  exact Builder.moves_addAdapter architecture b listing

/-- To build a table changes no decision, whether it succeeds or fails. -/
theorem moves_build (id : Nat) (target : Host.Class) (architecture : String)
    (adapters : List (Adapter σ)) :
    Moves Agrees (MethodTable.build id target architecture adapters) := by
  refine moves_bind (moves_foldlM (Builder.moves_addAdapter architecture) adapters _) fun own => ?_
  refine moves_bind (moves_addListing id target architecture _ own) fun all => ?_
  exact moves_bind (Setup.moves_write _ _) fun _ => moves_pure _

end MethodTable

end HostBridge
