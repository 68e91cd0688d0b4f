import HostBridge.Catalogue

/-!
# The bridge

A host process has one setup and one catalogue of adapters.  The `Bridge` holds
both, and its operations keep them consistent: whatever changes what a table
would look like drops the tables kept.

Tables are built when they are first asked for.  A table that cannot be built is
not kept.  To call a method on an object is to find the table of its class on the
architecture of the environment, find the method by name, and call it.

The bridge also hands out identities, so that no two adapters or tables ever
have the same one.
-/

namespace HostBridge

/-! ## Errors -/

/-- Why an operation of the bridge failed. -/
inductive BridgeError where
  /-- There is no converter for the architecture. -/
  | unknownArchitecture (name : String)
  /-- An adapter or a table could not be built. -/
  | registration (cause : RegistrationError)
  /-- A call failed. -/
  | call (cause : CallError)

/-- The message of a bridge error. -/
def BridgeError.message : BridgeError → String
  | .unknownArchitecture name => "unknown architecture '" ++ name ++ "'"
  | .registration cause => cause.message
  | .call cause => cause.message

/-! ## The type -/

/-- The setup and the adapters of a host process. -/
structure Bridge (σ : Type) where
  /-- What registration and look-ups work with. -/
  setup : Setup
  /-- The registered adapters. -/
  catalogue : Catalogue σ
  /-- The next identity to be handed out. -/
  supply : Nat

namespace Bridge

variable {σ : Type}

/-- The bridge of a host that has registered nothing. -/
def new (setup : Setup) : Bridge σ := ⟨setup, .empty, 0⟩

/-- An identity that was not handed out before. -/
def fresh : StateM (Bridge σ) Nat := fun b => (b.supply, { b with supply := b.supply + 1 })

/-- Run an operation on the setup. -/
def onSetup {α : Type} (operation : StateM Setup α) : StateM (Bridge σ) α := fun b =>
  let (result, setup) := operation b.setup
  (result, { b with setup })

/-- Run an operation on the setup that may fail to build something. -/
def building {α : Type} (operation : ExceptT RegistrationError (StateM Setup) α) :
    ExceptT BridgeError (StateM (Bridge σ)) α :=
  ExceptT.adapt .registration (ExceptT.mk (onSetup operation))

/-- Drop the tables kept. -/
def invalidate : StateM (Bridge σ) Unit :=
  modify fun b => { b with catalogue := b.catalogue.forgetTables }

/-! ## Registration and gating -/

/-- Build an adapter and register it. -/
def register (d : Adapter.Definition σ) :
    ExceptT BridgeError (StateM (Bridge σ)) (Adapter σ) := do
  let id ← ExceptT.lift fresh
  let a ← building (d.build id)
  modify fun b => { b with catalogue := b.catalogue.register a }
  ExceptT.lift (onSetup (Setup.write .debug ("registered " ++ a.describe)))
  return a

/-- Disable a feature group on an architecture. -/
def disableGroup (group architecture : String) : StateM (Bridge σ) Unit := do
  onSetup (Setup.disableGroup group architecture)
  invalidate

/-- Enable a feature group on an architecture. -/
def enableGroup (group architecture : String) : StateM (Bridge σ) Unit := do
  onSetup (Setup.enableGroup group architecture)
  invalidate

/-- Check every adapter again, with the named values of a setup.  If all pass, the
tables kept are dropped. -/
def revalidate (setup : Setup) : ExceptT RegistrationError (StateM (Bridge σ)) Unit := do
  let b ← get
  MonadExcept.ofExcept (b.catalogue.revalidate setup)
  ExceptT.lift invalidate

/-! ## Tables and calls -/

/-- The environment in which a call on an architecture starts. -/
def environment (b : Bridge σ) (architecture : String) : Except BridgeError Environment :=
  match b.setup.environment? architecture with
  | some env => .ok env
  | none => .error (.unknownArchitecture architecture)

/-- The table of a class on an architecture: the one kept, or a new one. -/
def classTable (cls : Host.Class) (architecture : String) :
    ExceptT BridgeError (StateM (Bridge σ)) (MethodTable σ) := do
  let b ← get
  match b.catalogue.table? cls architecture with
  | some t => return t
  | none =>
      let id ← ExceptT.lift fresh
      let t ← building (MethodTable.build id cls architecture (b.catalogue.adaptersFor cls))
      modify fun b => { b with catalogue := b.catalogue.keep cls architecture t }
      return t

/-- The table of an object on an architecture. -/
def methodTable (o : Host.Object) (architecture : String) :
    ExceptT BridgeError (StateM (Bridge σ)) (MethodTable σ) := do
  let b ← get
  match b.setup.converter? architecture with
  | some _ => classTable o.cls architecture
  | none => throw (.unknownArchitecture architecture)

/-- The end of a call: a method that failed is logged. -/
def settle (b : Bridge σ) : Except CallError (List Script.Value) × σ →
    Except BridgeError (List Script.Value) × Bridge σ × σ
  | (.ok values, s) => (.ok values, b, s)
  | (.error e, s) => (.error (.call e), ((onSetup (Setup.addLog e.logLines)).run b).2, s)

/-- Call a method of an object by name in an environment.  The second part of the
answer is the bridge afterwards, the third the state of the host afterwards. -/
def callWith (b : Bridge σ) (env : Environment) (o : Host.Object) (name : String)
    (args : List Script.Value) (s : σ) :
    Except BridgeError (List Script.Value) × Bridge σ × σ :=
  match (methodTable o env.architecture).run b with
  | (.error e, b) => (.error e, b, s)
  | (.ok table, b) => b.settle (table.call name env (.object o) args s)

/-- Call a method of an object by name on an architecture. -/
def call (b : Bridge σ) (o : Host.Object) (architecture name : String)
    (args : List Script.Value) (s : σ) :
    Except BridgeError (List Script.Value) × Bridge σ × σ :=
  match b.environment architecture with
  | .error e => (.error e, b, s)
  | .ok env => b.callWith env o name args s

end Bridge

end HostBridge
