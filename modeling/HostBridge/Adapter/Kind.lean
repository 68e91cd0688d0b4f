import HostBridge.Declaration
import HostBridge.Environment

/-!
# Kinds of adapters

There are three kinds of adapters, and each says what its methods may expect of
a host.  Methods of a peripheral and accessors of a property are called on a
target, whose class is the target of the adapter.  Composed methods belong to
the method table itself and have no target.  Each kind also has its own list of
named values, with their types.
-/

namespace HostBridge

/-- The kinds of adapters. -/
inductive Adapter.Kind where
  /-- Methods of a target, with all a host can supply. -/
  | peripheral
  /-- Accessors of properties of a target. -/
  | property
  /-- Methods of the method table itself. -/
  | composed
deriving DecidableEq, Repr

namespace Adapter.Kind

/-- All kinds. -/
def all : List Kind := [.peripheral, .property, .composed]

/-- The kind as it is spelled in descriptions. -/
def name : Kind → String
  | .peripheral => "peripheral"
  | .property => "property"
  | .composed => "composed"

/-- The named values a host supplies to methods of the kind, unless it says otherwise. -/
def defaultEnvTypes : Kind → EnvTypes
  | .peripheral => .ofList [
      (Environment.Key.converter, .object Converter.objectClass),
      (Environment.Key.context, .any),
      (Environment.Key.access, .any),
      (Environment.Key.computer, .any),
      (Environment.Key.architecture, .string)]
  | .property => .ofList [(Environment.Key.converter, .object Converter.objectClass)]
  | .composed => .ofList [
      (Environment.Key.converter, .object Converter.objectClass),
      (Environment.Key.context, .any)]

/-- The types of the values a host supplies by position to methods of the kind. -/
def positionalTypes (target : Host.Class) : Kind → List Host.Ty
  | .composed => []
  | _ => [.object target]

/-- Check that a host can run a method of the kind on a target. -/
def verify (kind : Kind) (d : Declaration) (target : Host.Class) (provided : EnvTypes) :
    Except RequirementError Unit := do
  d.checkPositional (kind.positionalTypes target)
  d.checkEnv provided

end Adapter.Kind

end HostBridge
