import HostBridge.Converter

/-!
# Host functions

The code behind a method.  A host function is called with its values in the order
of its parameters: first those the host supplies by position, beginning with the
target, then those it supplies by name, then the converted script arguments.  It
may change the state of the host, whether it succeeds or fails.  So it is a
function from a call and a state to a result and a state.

`Call` offers the values in the forms a function may ask for.
-/

namespace HostBridge

/-! ## Errors -/

/-- Why a host function failed. -/
inductive FunctionError where
  /-- A value does not have the form asked for. -/
  | conversion (index : Nat) (cause : ConversionError)
  /-- There are fewer values than asked for. -/
  | outOfBounds (index count : Nat)
  /-- A value is not an object carrying what was asked for. -/
  | wrongObject (index : Nat) (expected : String)
  /-- The function gave up for a reason of its own. -/
  | failed (reason : String)

/-- The message of a function error. -/
def FunctionError.message : FunctionError → String
  | .conversion index cause => "argument " ++ toString index ++ ": " ++ cause.message
  | .outOfBounds index count =>
      "argument index " ++ toString index ++ " out of bounds (count: " ++ toString count ++ ")"
  | .wrongObject index expected => "argument " ++ toString index ++ ": expected " ++ expected
  | .failed reason => reason

/-! ## Calls -/

/-- What a host function is called with. -/
structure Call where
  /-- The values, in the order of the parameters. -/
  values : List Host.Value
  /-- The converter that a converter object among the values stands for. -/
  converter : Converter

namespace Call

/-- The value at an index, as it is. -/
def get (c : Call) (index : Nat) : Except FunctionError Host.Value :=
  match c.values[index]? with
  | some v => .ok v
  | none => .error (.outOfBounds index c.values.length)

/-- The value at an index in a form. -/
def extract (c : Call) (form : Host.Form) (index : Nat) : Except FunctionError form.Data := do
  let v ← c.get index
  (form.extract v).mapError (.conversion index)

/-- What `pick` finds in the object at an index.  `expected` says what it looks for. -/
def object {α : Type} (c : Call) (index : Nat) (expected : String)
    (pick : Host.Object → Option α) : Except FunctionError α := do
  let v ← c.get index
  match v.object?.bind pick with
  | some found => return found
  | none => .error (.wrongObject index expected)

/-- The way messages refer to converter objects. -/
def converterTypeName : String :=
  "alloc::sync::Arc<dyn scriptbind_core::convert::TypeConverter>"

/-- The converter that the object at an index stands for. -/
def converterAt (c : Call) (index : Nat) : Except FunctionError Converter :=
  c.object index converterTypeName fun o =>
    if o.payload = .converter then some c.converter else none

end Call

/-- The code behind a method, over host states of type `σ`. -/
def HostFunction (σ : Type) : Type := Call → σ → Except FunctionError Host.Value × σ

namespace HostFunction

variable {σ : Type}

/-- A function that does not touch the state. -/
def stateless (f : Call → Except FunctionError Host.Value) : HostFunction σ := fun c s => (f c, s)

/-- The function that gives the same value whatever it is called with. -/
def const (v : Host.Value) : HostFunction σ := stateless fun _ => .ok v

end HostFunction

end HostBridge
