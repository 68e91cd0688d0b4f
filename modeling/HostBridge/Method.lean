import HostBridge.Declaration
import HostBridge.Environment
import HostBridge.Gating
import HostBridge.HostFunction

/-!
# Methods

A method is a declaration together with the host function behind it and the
conditions under which scripts see it.  Methods have identities, which tell apart
two methods that are otherwise alike.

A call goes through three stages.  `inputs` gathers the values of the host
function: the target and the other values by position, then the values by name,
then the converted script arguments.  If anything is missing or does not convert,
the call ends there.  Then the function runs, once.  `outputs` converts what it
returned.  A result that is not split gives one script value, or none if the
declared type is `void`.  A result that is split must have as many items as the
method has result tags, which is checked before the items are converted.
-/

namespace HostBridge

/-! ## Errors -/

/-- Why a call of a method failed. -/
inductive CallFault where
  /-- The script arguments were refused. -/
  | argument (cause : ArgumentError)
  /-- The host did not supply a value. -/
  | missingEnvironment (name : String)
  /-- The host function failed. -/
  | invocation (cause : FunctionError)
  /-- The result has another number of items than announced. -/
  | resultCount (expected got : Nat)
  /-- The result has no script value. -/
  | result (cause : ConversionError)

/-- The message of a call fault. -/
def CallFault.message : CallFault → String
  | .argument cause => cause.message
  | .missingEnvironment name => "missing environment value '" ++ name ++ "'"
  | .invocation cause => cause.message
  | .resultCount expected got =>
      "expected " ++ toString expected ++ " return value(s), got " ++ toString got
  | .result cause => "invalid result: " ++ cause.message

/-- Why a call failed. -/
inductive CallError where
  /-- A method was found and failed. -/
  | inMethod (name : String) (fault : CallFault)
  /-- There is no such method. -/
  | noSuchMethod (name : String)

namespace CallError

/-- The message of a call error.  It names the method that failed. -/
def message : CallError → String
  | .inMethod name fault => name ++ ": " ++ fault.message
  | .noSuchMethod name => "no such method: " ++ name

/-- The canonical name of the method that failed, if there was one. -/
def method? : CallError → Option String
  | .inMethod name _ => some name
  | .noSuchMethod _ => none

/-- What is logged about a failed call: a method that failed is, one that does not
exist is not. -/
def logLines (e : CallError) : List LogLine :=
  match e.method? with
  | some name => [⟨.debug, "error during method " ++ name ++ " execution: " ++ e.message⟩]
  | none => []

end CallError

/-! ## Methods -/

/-- The identity of a method: that of the adapter it was built for, and its place there. -/
structure MethodId where
  /-- The identity of the adapter. -/
  adapter : Nat
  /-- The place among the methods of the adapter. -/
  place : Nat
deriving DecidableEq, Repr

/-- How a method is to be run and where it comes from. -/
inductive Flag where
  /-- The caller may be suspended until the result is there. -/
  | asynchronous
  | multipleResult
  | property
  /-- The method belongs to the method table itself and has no target. -/
  | composed
deriving DecidableEq, Repr

/-- A method, over host states of type `σ`. -/
structure Method (σ : Type) where
  id : MethodId
  /-- How scripts and hosts see the method. -/
  declaration : Declaration
  /-- The code behind it. -/
  function : HostFunction σ
  /-- Whether the caller may be suspended until the result is there. -/
  asynchronous : Bool := false
  /-- Whether the method was made from a property. -/
  ofProperty : Bool := false
  /-- Whether the method belongs to the method table itself. -/
  composed : Bool := false
  /-- The feature group the method belongs to, if any. -/
  group : Option String := none
  /-- The architectures on which scripts never see the method. -/
  excluded : List String := []

namespace Method

variable {σ : Type}

/-- The canonical name. -/
def name (m : Method σ) : String := m.declaration.name

/-- The flags of the method, in a fixed order. -/
def flags (m : Method σ) : List Flag :=
  (if m.asynchronous then [.asynchronous] else [])
    ++ (if m.declaration.multiple then [.multipleResult] else [])
    ++ (if m.ofProperty then [.property] else [])
    ++ (if m.composed then [.composed] else [])

/-- The excluded architectures in alphabetical order, each once. -/
def sortedExcluded (m : Method σ) : List String :=
  m.excluded.eraseDups.mergeSort fun a b => decide (a ≤ b)

/-! ## Visibility -/

/-- Whether scripts see the method on an architecture. -/
def visible (m : Method σ) (architecture : String) (gating : Gating) : Bool :=
  !m.excluded.contains architecture
    && match m.group with
      | some group => gating.isEnabled group architecture
      | none => true

/-- Find out whether scripts see the method on an architecture.  To ask about its
group makes the group known; an excluded architecture is refused without asking. -/
def checkVisible (m : Method σ) (architecture : String) : StateM Gating Bool := fun gating =>
  let gating' :=
    if m.excluded.contains architecture then gating
    else
      match m.group with
      | some group => gating.mention group
      | none => gating
  (m.visible architecture gating, gating')

/-! ## Calls -/

/-- The value of the positional parameter at an index. -/
def positionalInput (env : Environment) (target : Host.Value) (index : Nat) :
    Except CallFault Host.Value :=
  match index with
  | 0 => .ok target
  | i + 1 =>
      match env.positional? i with
      | some v => .ok v
      | none => .error (.missingEnvironment ("#" ++ toString (i + 1)))

/-- The value of a parameter the host supplies by name. -/
def namedInput (env : Environment) (p : EnvParam) : Except CallFault Host.Value :=
  match env.named? p.name with
  | some v => .ok v
  | none => .error (.missingEnvironment p.name)

/-- The values the host function is called with. -/
def inputs (m : Method σ) (env : Environment) (target : Host.Value) (args : List Script.Value) :
    Except CallFault (List Host.Value) := do
  let positional ← (List.range m.declaration.positional.length).mapM (positionalInput env target)
  let named ← m.declaration.env.mapM (namedInput env)
  let converted ← (m.declaration.convertArguments env.converter args).mapError .argument
  return positional ++ named ++ converted

/-- The items of a result that is split.  A value that is no sequence is one item,
and null is none. -/
def resultItems : Host.Value → List Host.Value
  | .multi items => items
  | .array items => items
  | .list items => items
  | .null => []
  | other => [other]

/-- The script values for what the host function returned. -/
def outputs (m : Method σ) (converter : Converter) (result : Host.Value) :
    Except CallFault (List Script.Value) :=
  if m.declaration.multiple then
    let items := resultItems result
    let expected := m.declaration.resultTags.length
    if items.length ≠ expected then .error (.resultCount expected items.length)
    else (items.mapM converter.toScript).mapError .result
  else
    match m.declaration.returns with
    | .void => .ok []
    | _ => ((converter.toScript result).map fun v => [v]).mapError .result

/-- Call the method in a state of the host. -/
def call (m : Method σ) (env : Environment) (target : Host.Value) (args : List Script.Value)
    (s : σ) : Except CallError (List Script.Value) × σ :=
  match m.inputs env target args with
  | .error fault => (.error (.inMethod m.name fault), s)
  | .ok values =>
      match m.function ⟨values, env.converter⟩ s with
      | (.error e, s') => (.error (.inMethod m.name (.invocation e)), s')
      | (.ok result, s') =>
          ((m.outputs env.converter result).mapError (.inMethod m.name), s')

end Method

end HostBridge
