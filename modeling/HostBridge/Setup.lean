import HostBridge.Adapter.Kind
import HostBridge.Gating

/-!
# Setups

What registration and look-ups work with besides the adapters: how host types are
classified, which feature groups are disabled where, the converter of each
architecture, the named values each kind of adapter may use, and whether method
tables describe themselves.

Classification and gating change while adapters are built and tables are put
together.  So these operations act on a setup, and they write to its log.
-/

namespace HostBridge

/-- What registration and look-ups work with. -/
structure Setup where
  /-- How host types are classified. -/
  classification : Classification
  /-- Which feature groups are disabled where. -/
  gating : Gating
  /-- The converters, by architecture. -/
  converters : Dict String Converter
  /-- The named values a host supplies to methods of each kind. -/
  envTypes : Adapter.Kind → EnvTypes
  /-- Whether method tables have methods that describe them. -/
  lists : Bool
  /-- What was logged, oldest first. -/
  log : List LogLine

namespace Setup

/-- The architectures every setup knows. -/
def builtInArchitectures : List String := ["computercraft", "opencomputers"]

/-- The setup a host starts from: the built-in architectures convert without rules,
and tables describe themselves. -/
def initial : Setup where
  classification := .empty
  gating := .empty
  converters := .ofList (builtInArchitectures.map fun a => (a, .standard []))
  envTypes := Adapter.Kind.defaultEnvTypes
  lists := true
  log := []

instance : Inhabited Setup := ⟨initial⟩

/-! ## Changes -/

/-- The setup with one more classifier. -/
def addClassifier (s : Setup) (classifier : Classifier) : Setup :=
  { s with classification := s.classification.register classifier }

/-- The setup with the given converter for an architecture. -/
def setConverter (s : Setup) (architecture : String) (converter : Converter) : Setup :=
  { s with converters := s.converters.insert architecture converter }

/-- The setup with a named value for methods of a kind. -/
def setEnvType (s : Setup) (kind : Adapter.Kind) (name : String) (ty : Host.Ty) : Setup :=
  { s with
    envTypes := fun k => if k = kind then (s.envTypes k).insert name ty else s.envTypes k }

/-! ## Look-ups -/

/-- The converter of an architecture. -/
def converter? (s : Setup) (architecture : String) : Option Converter :=
  s.converters.find? architecture

/-- The known architectures in alphabetical order. -/
def architectures (s : Setup) : List String :=
  s.converters.keys.mergeSort fun a b => decide (a ≤ b)

/-- The environment in which a call on an architecture starts. -/
def environment? (s : Setup) (architecture : String) : Option Environment :=
  (s.converter? architecture).map (Environment.new architecture)

/-! ## Operations on a setup -/

/-- What was logged since the log was last taken.  The log is empty afterwards. -/
def takeLog : StateM Setup (List LogLine) := fun s => (s.log, { s with log := [] })

/-- Append lines to the log. -/
def addLog (lines : List LogLine) : StateM Setup Unit :=
  modify fun s => { s with log := s.log ++ lines }

/-- Append a line to the log. -/
def write (level : LogLevel) (text : String) : StateM Setup Unit := addLog [⟨level, text⟩]

/-- Run an operation on the classification of a setup. -/
def classifying {α : Type} (operation : StateM Classification α) : StateM Setup α := fun s =>
  let (result, classification) := operation s.classification
  (result, { s with classification })

/-- Run an operation on the gating of a setup. -/
def deciding {α : Type} (operation : StateM Gating α) : StateM Setup α := fun s =>
  let (result, gating) := operation s.gating
  (result, { s with gating })

/-- Disable a feature group on an architecture, with a warning if it is not known. -/
def disableGroup (group architecture : String) : StateM Setup Unit :=
  modify fun s => { s with
    gating := s.gating.disable group architecture
    log := s.log ++ s.gating.toggleWarning "disabling" group architecture }

/-- Enable a feature group on an architecture, with a warning if it is not known. -/
def enableGroup (group architecture : String) : StateM Setup Unit :=
  modify fun s => { s with
    gating := s.gating.enable group architecture
    log := s.log ++ s.gating.toggleWarning "enabling" group architecture }

/-- Whether a feature group is enabled on an architecture.  To ask makes it known. -/
def askGroup (group architecture : String) : StateM Setup Bool := fun s =>
  (s.gating.isEnabled group architecture, { s with gating := s.gating.mention group })

end Setup

end HostBridge
