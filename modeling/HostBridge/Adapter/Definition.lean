import HostBridge.Setup
import HostBridge.Method
import HostBridge.Signature
import HostBridge.Text.Uppercase

/-!
# Definitions of adapters

What the author of an adapter writes down: the class it is for, its kind, and its
methods.  Methods are given one by one, by a provider that may fail, and by
properties.  A property has a getter and, if it can be written, a setter; it is
turned into a method for each.

A definition may set defaults for its methods: the feature group and whether
they are asynchronous, which a method may replace, and excluded architectures,
to which a method may add.
-/

namespace HostBridge

/-- A method as its author gives it. -/
structure MethodSpec (σ : Type) where
  signature : Signature
  /-- The code behind the method. -/
  function : HostFunction σ
  /-- Whether the method is asynchronous, if the default is not to be used. -/
  asynchronous : Option Bool := none
  /-- The feature group, if the default is not to be used. -/
  group : Option String := none
  /-- Further architectures on which scripts never see the method. -/
  excluded : List String := []
  /-- Whether the method was made from a property. -/
  ofProperty : Bool := false

/-! ## Properties -/

/-- A property of the target of an adapter. -/
structure Property (σ : Type) where
  name : String
  /-- The documentation; if empty, the accessors document themselves. -/
  description : String := ""
  /-- The type of the property. -/
  ty : Host.Ty
  /-- The type of its index, if it has one value for each index. -/
  index : Option Host.Ty := none
  /-- The code that reads the property. -/
  getter : HostFunction σ
  /-- The code that writes the property, if that is possible. -/
  setter : Option (HostFunction σ) := none
  /-- The feature group of the accessors, if the default is not to be used. -/
  group : Option String := none

namespace Property

variable {σ : Type}

/-- The name of the reading method. -/
def getterName (p : Property σ) : String := "get" ++ Text.capitalize p.name

/-- The name of the writing method. -/
def setterName (p : Property σ) : String := "set" ++ Text.capitalize p.name

/-- The documentation of an accessor. -/
def documentation (p : Property σ) (verb : String) : String :=
  if p.description = "" then verb ++ " the value of property " ++ p.name else p.description

/-- The parameters both accessors begin with: the target, and the index if there is one. -/
def commonParams (p : Property σ) (target : Host.Class) : List Param :=
  { ty := .object target, role := .positional } ::
    match p.index with
    | some ty => [.argument "index" ty "Property index"]
    | none => []

/-- The signature of the reading method, given the tag of what it returns. -/
def getterSignature (p : Property σ) (target : Host.Class) (tag : Script.ResultTag) : Signature where
  name := p.getterName
  description := p.documentation "Get"
  params := p.commonParams target
  returns := p.ty
  resultTags := [tag]

/-- The signature of the writing method. -/
def setterSignature (p : Property σ) (target : Host.Class) : Signature where
  name := p.setterName
  description := p.documentation "Set"
  params := p.commonParams target ++ [.argument "value" p.ty "New value"]

/-- The tag of what the reading method returns.  A type that does not resolve is
left for the reading of the signature to refuse. -/
def resultTag (p : Property σ) (bindings : Host.Bindings) :
    StateM Classification Script.ResultTag :=
  match p.ty.resolve bindings with
  | .ok ty => do
      let shape ← Classification.classify ty
      return .ofTag shape.toTag
  | .error _ => pure .object

/-- The methods for a property. -/
def methodSpecs (p : Property σ) (target : Host.Class) (bindings : Host.Bindings) :
    StateM Classification (List (MethodSpec σ)) := do
  let tag ← p.resultTag bindings
  let getter : MethodSpec σ := {
    signature := p.getterSignature target tag
    function := p.getter
    group := p.group
    ofProperty := true }
  match p.setter with
  | none => return [getter]
  | some setter => return [getter, {
      signature := p.setterSignature target
      function := setter
      group := p.group
      ofProperty := true }]

end Property

/-! ## Definitions -/

/-- What the author of an adapter writes down. -/
structure Adapter.Definition (σ : Type) where
  name : String
  /-- The class whose objects the adapter is for. -/
  target : Host.Class
  kind : Adapter.Kind
  /-- The tag by which scripts are told where methods come from, if not the name. -/
  source : Option String := none
  /-- What the type variables in signatures stand for. -/
  bindings : Host.Bindings := .empty
  /-- Whether methods are asynchronous unless they say otherwise. -/
  asynchronous : Bool := false
  /-- The feature group of methods that name none. -/
  group : Option String := none
  /-- The architectures on which scripts see none of the methods. -/
  excluded : List String := []
  /-- Methods given one by one. -/
  methods : List (MethodSpec σ) := []
  /-- Methods found when the adapter is built, or why they cannot be found. -/
  provider : Option (Except String (List (MethodSpec σ))) := none
  properties : List (Property σ) := []

namespace Adapter.Definition

variable {σ : Type}

/-- The tag by which scripts are told where methods come from. -/
def sourceTag (d : Definition σ) : String := d.source.getD d.name

/-- All methods: those given one by one, those found, and the accessors of
properties, in this order. -/
def enumerate (d : Definition σ) : ExceptT String (StateM Classification) (List (MethodSpec σ)) := do
  let found ← MonadExcept.ofExcept (d.provider.getD (.ok []))
  let accessors ← d.properties.mapM fun p => p.methodSpecs d.target d.bindings
  return d.methods ++ found ++ accessors.flatten

/-- The message about methods that cannot be found. -/
def enumerationMessage (reason : String) : String := "cannot enumerate methods: " ++ reason

end Adapter.Definition

end HostBridge
