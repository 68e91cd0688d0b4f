import HostBridge.Dict
import HostBridge.Log

/-!
# Feature groups

Methods may belong to a feature group, and a group can be disabled on single
architectures.  A `Gating` keeps, for every known group, the architectures on
which it is disabled.  A group is enabled wherever it was not disabled, so a group
nobody mentioned is enabled everywhere.

A group becomes known when it is mentioned for the first time, also by asking
whether it is enabled, and is never forgotten.  To toggle a group that is not
known is allowed but worth a warning.
-/

namespace HostBridge

/-- The known feature groups, each with the architectures it is disabled on. -/
structure Gating where
  /-- The disabled architectures of each known group. -/
  disabled : Dict String (List String)

namespace Gating

/-- The gating that knows no group. -/
def empty : Gating := ⟨.empty⟩

instance : Inhabited Gating := ⟨empty⟩

/-- The architectures on which a group is disabled. -/
def disabledOn (g : Gating) (group : String) : List String :=
  (g.disabled.find? group).getD []

/-- Whether a group is enabled on an architecture. -/
def isEnabled (g : Gating) (group architecture : String) : Bool :=
  !(g.disabledOn group).contains architecture

/-- Make a group known. -/
def mention (g : Gating) (group : String) : Gating :=
  if g.disabled.contains group then g else ⟨g.disabled.insert group []⟩

/-- Disable a group on an architecture. -/
def disable (g : Gating) (group architecture : String) : Gating :=
  let before := g.disabledOn group
  ⟨g.disabled.insert group
    (if before.contains architecture then before else before ++ [architecture])⟩

/-- Enable a group on an architecture. -/
def enable (g : Gating) (group architecture : String) : Gating :=
  ⟨g.disabled.insert group ((g.disabledOn group).filter (· ≠ architecture))⟩

/-- The names of the known groups in alphabetical order. -/
def knownGroups (g : Gating) : List String :=
  g.disabled.keys.mergeSort fun a b => decide (a ≤ b)

/-- The warning about toggling a group, if the group is not known.  `action` says
what is done to it. -/
def toggleWarning (g : Gating) (action group architecture : String) : List LogLine :=
  if g.disabled.contains group then []
  else [⟨.warn, action ++ " feature group '" ++ group ++ "' on '" ++ architecture
    ++ "', but no adapter references it"⟩]

/-! ## Laws -/

@[simp] theorem isEnabled_empty (group architecture : String) :
    empty.isEnabled group architecture = true := rfl

/-- To mention a group does not disable anything. -/
theorem isEnabled_mention (g : Gating) (name group architecture : String) :
    (g.mention name).isEnabled group architecture = g.isEnabled group architecture := by
  unfold mention
  split
  · rfl
  · rename_i h
    simp only [isEnabled, disabledOn, Dict.find?_insert]
    split
    · rename_i heq
      subst heq
      have : g.disabled.find? name = none := by
        cases hf : g.disabled.find? name with
        | none => rfl
        | some v => simp [Dict.contains, hf] at h
      simp [this]
    · rfl

/-- Disabling a group on an architecture affects that pair only. -/
theorem isEnabled_disable (g : Gating) (name place group architecture : String) :
    (g.disable name place).isEnabled group architecture =
      (g.isEnabled group architecture && !(name == group && place == architecture)) := by
  simp only [isEnabled, disable, disabledOn, Dict.find?_insert]
  by_cases hn : name = group
  · subst hn
    by_cases hp : place = architecture
    · subst hp
      by_cases hc : ((g.disabled.find? name).getD []).contains place <;> simp_all
    · have hp' : ¬ architecture = place := fun e => hp e.symm
      by_cases hc : ((g.disabled.find? name).getD []).contains place <;> simp_all
  · simp [hn]

/-- Enabling a group on an architecture affects that pair only. -/
theorem isEnabled_enable (g : Gating) (name place group architecture : String) :
    (g.enable name place).isEnabled group architecture =
      (g.isEnabled group architecture || (name == group && place == architecture)) := by
  simp only [isEnabled, enable, disabledOn, Dict.find?_insert]
  by_cases hn : name = group
  · subst hn
    by_cases hp : place = architecture
    · subst hp
      simp
    · have hp' : ¬ architecture = place := fun e => hp e.symm
      simp [hp, hp']
  · simp [hn]

end Gating

end HostBridge
