import HostBridge.Adapter.Definition
import HostBridge.Declaration.Layout

/-!
# Adapters

An adapter is a definition whose methods were all understood and found to fit
the kind of the adapter.  One method that does not makes the whole definition
fail: there are no partial adapters.  A definition whose methods cannot even be
found is not an error; it is logged and gives an adapter without methods.

Methods are wrapped one by one, and each leaves traces in the setup: shapes that
were found, a feature group that was mentioned, a line in the log.  The traces
stay when a later method fails.

An adapter is built under an identity, which the identities of its methods carry
on.  Whoever builds adapters must never use an identity twice.
-/

namespace HostBridge

/-! ## Errors -/

/-- Why a method does not fit its adapter. -/
inductive WrapCause where
  /-- Its signature was refused. -/
  | declaration (cause : DeclarationError)
  /-- The host does not supply what it needs. -/
  | requirement (cause : RequirementError)

/-- The message of the cause. -/
def WrapCause.message : WrapCause → String
  | .declaration cause => cause.message
  | .requirement cause => cause.message

/-- Why an adapter or a method table could not be built. -/
inductive RegistrationError where
  /-- A method does not fit its adapter. -/
  | wrap (adapter method : String) (cause : WrapCause)
  /-- Two methods have a name in common. -/
  | duplicate (name first second : String)

/-- The message of a registration error. -/
def RegistrationError.message : RegistrationError → String
  | .wrap adapter method cause =>
      "Failed to wrap method '" ++ method ++ "' of adapter '" ++ adapter ++ "': " ++ cause.message
  | .duplicate name first second =>
      "duplicate method name '" ++ name ++ "': provided by '" ++ first ++ "' and '" ++ second ++ "'"

/-! ## The type -/

/-- The methods of a definition, ready to be called. -/
structure Adapter (σ : Type) where
  id : Nat
  name : String
  /-- The tag by which scripts are told where the methods come from. -/
  source : String
  /-- The class whose objects the adapter is for. -/
  target : Host.Class
  kind : Adapter.Kind
  /-- The methods, in the order of the definition. -/
  methods : List (Method σ)

namespace Adapter

variable {σ : Type}

/-- Whether the adapter is for objects of a class. -/
def serves (a : Adapter σ) (c : Host.Class) : Bool := c.isA a.target

/-- A summary of the adapter. -/
def describe (a : Adapter σ) : String :=
  a.kind.name ++ " adapter '" ++ a.name ++ "' (source: " ++ a.source ++ ") for " ++ a.target.name

/-- Check again that a host can run the methods, with the named values of a setup. -/
def revalidate (a : Adapter σ) (setup : Setup) : Except RegistrationError Unit :=
  a.methods.forM fun m =>
    (a.kind.verify m.declaration a.target (setup.envTypes a.kind)).mapError fun e =>
      .wrap a.name m.name (.requirement e)

/-! ## Building -/

namespace Definition

/-- Understand a method and check that it fits the kind of the adapter. -/
def declare (d : Definition σ) (spec : MethodSpec σ) :
    ExceptT WrapCause (StateM Setup) Declaration := do
  let declaration ← ExceptT.adapt WrapCause.declaration (ExceptT.mk
    (Setup.classifying (Declaration.parse spec.signature d.bindings d.sourceTag)))
  let setup ← get
  MonadExcept.ofExcept
    ((d.kind.verify declaration d.target (setup.envTypes d.kind)).mapError .requirement)
  return declaration

/-- The feature group of a method. -/
def groupOf (d : Definition σ) (spec : MethodSpec σ) : Option String := spec.group <|> d.group

/-- The method for a specification that was understood. -/
def method (d : Definition σ) (id place : Nat) (spec : MethodSpec σ) (declaration : Declaration) :
    Method σ where
  id := ⟨id, place⟩
  declaration
  function := spec.function
  asynchronous := spec.asynchronous.getD d.asynchronous
  ofProperty := spec.ofProperty
  composed := d.kind = .composed
  group := d.groupOf spec
  excluded := d.excluded ++ spec.excluded

/-- Wrap the method at a place of the adapter. -/
def wrap (d : Definition σ) (id place : Nat) (spec : MethodSpec σ) :
    ExceptT RegistrationError (StateM Setup) (Method σ) := do
  let declaration ←
    ExceptT.adapt (RegistrationError.wrap d.name spec.signature.name) (d.declare spec)
  if let some group := d.groupOf spec then
    modify fun setup => { setup with gating := setup.gating.mention group }
  Setup.write .trace ("wrapped '" ++ declaration.name ++ "' of adapter '" ++ d.name ++ "'")
  return d.method id place spec declaration

/-- Wrap methods one after the other, the first at the given place. -/
def wrapAll (d : Definition σ) (id place : Nat) :
    List (MethodSpec σ) → ExceptT RegistrationError (StateM Setup) (List (Method σ))
  | [] => return []
  | spec :: rest => do
      let m ← d.wrap id place spec
      let ms ← d.wrapAll id (place + 1) rest
      return m :: ms

/-- The methods of the definition, or none and a line in the log if they cannot be found. -/
def specs (d : Definition σ) : StateM Setup (List (MethodSpec σ)) := do
  match ← Setup.classifying d.enumerate with
  | .ok specs => return specs
  | .error reason =>
      Setup.write .error ("can't get methods of adapter '" ++ d.name ++ "' for '" ++ d.target.name
        ++ "', bailing out: " ++ enumerationMessage reason)
      return []

/-- Build the adapter under an identity. -/
def build (d : Definition σ) (id : Nat) : ExceptT RegistrationError (StateM Setup) (Adapter σ) := do
  let specs ← d.specs
  let methods ← d.wrapAll id 0 specs
  Setup.write .debug ("built " ++ d.kind.name ++ " adapter '" ++ d.name ++ "' for '"
    ++ d.target.name ++ "' with " ++ toString methods.length ++ " method(s)")
  return { id, name := d.name, source := d.sourceTag, target := d.target, kind := d.kind, methods }

end Definition

end Adapter

end HostBridge
