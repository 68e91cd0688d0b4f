import HostBridge.Host.Records
import HostBridge.HostFunction

/-!
# Ready-made host functions

Functions that need no code of their own: they give back what they were called
with, count it, convert it, fail, or read and write a field of their target.

The functions on fields work on the records of the host.  Their target is the
value at index zero.  A function that writes takes its argument first, so that a
bad argument is reported before a bad target, and then nothing is written.
-/

namespace HostBridge.HostFunction

open Host (Records)

variable {σ : Type}

/-! ## Functions without state -/

/-- Fail for the given reason. -/
def failing (reason : String) : HostFunction σ := stateless fun _ => .error (.failed reason)

/-- The number of values. -/
def count : HostFunction σ := stateless fun c => .ok (.integer (.ofInt c.values.length))

/-- Whether there are no values. -/
def hasNone : HostFunction σ := stateless fun c => .ok (.boolean c.values.isEmpty)

/-- The value at an index, as it is. -/
def valueAt (index : Nat) : HostFunction σ := stateless fun c => c.get index

/-- The value at an index, read and written in a form. -/
def dataAt (form : Host.Form) (index : Nat) : HostFunction σ :=
  stateless fun c => (c.extract form index).map form.embed

/-- All values, put together. -/
def together (build : List Host.Value → Host.Value) : HostFunction σ :=
  stateless fun c => .ok (build c.values)

/-- What the object at an index carries. -/
def carriedAt (index : Nat) (expected : String) (pick : Host.Object → Option Host.Value) :
    HostFunction σ :=
  stateless fun c => c.object index expected pick

/-- Whether the object at an index stands for the converter; if not, the function fails. -/
def converterGiven (index : Nat) : HostFunction σ :=
  stateless fun c => (c.converterAt index).map fun _ => .boolean true

/-- What the converter at an index makes of a script value at a type, or null. -/
def converted (index : Nat) (v : Script.Value) (t : Host.Ty) : HostFunction σ :=
  stateless fun c => (c.converterAt index).map fun converter => (converter.toHost v t).getD .null

/-! ## Functions on fields -/

/-- A function on the records that also sees the target of the call. -/
def onTarget {α : Type} (expected : String) (input : Call → Except FunctionError α)
    (f : α → Nat → Records → Except FunctionError Host.Value × Records) :
    HostFunction Records := fun c r =>
  match input c, c.object 0 expected Host.Object.record? with
  | .error e, _ => (.error e, r)
  | .ok _, .error e => (.error e, r)
  | .ok a, .ok identity => f a identity r

/-- The value of a field, or null. -/
def readField (expected name : String) : HostFunction Records :=
  onTarget expected (fun _ => .ok ()) fun _ identity r =>
    (.ok ((r.field? identity name).getD .null), r)

/-- Write the value at an index to a field. -/
def writeField (expected name : String) (index : Nat) : HostFunction Records :=
  onTarget expected (fun c => c.get index) fun v identity r =>
    (.ok .null, r.write identity name v)

/-- The integer in a field, zero if there is none. -/
def counter (r : Records) (identity : Nat) (name : String) : Int64 :=
  match r.field? identity name with
  | some (.integer n) => n
  | _ => 0

/-- Add the integer at an index to the one in a field, and give back the sum. -/
def addToField (expected name : String) (index : Nat) : HostFunction Records :=
  onTarget expected (fun c => c.extract (.integer .int64) index) fun n identity r =>
    let sum := Host.Value.integer (counter r identity name + .ofInt n.val)
    (.ok sum, r.write identity name sum)

/-- The item of the array in a field at a position. -/
def item? (r : Records) (identity : Nat) (name : String) (position : Nat) : Option Host.Value :=
  match r.field? identity name with
  | some (.array items) => items[position]?
  | _ => none

/-- The item of the array in a field at the position given by the value at an index. -/
def itemOfField (expected name : String) (index : Nat) : HostFunction Records :=
  onTarget expected (fun c => c.extract (.integer .natSize) index) fun n identity r =>
    match item? r identity name n.val.toNat with
    | some v => (.ok v, r)
    | none => (.error (.failed ("no slot " ++ toString n.val)), r)

end HostBridge.HostFunction
