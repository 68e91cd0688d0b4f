import HostBridge.Dict
import HostBridge.Host.Value

/-!
# Records

The mutable part of a host: for each object with the payload `store`, by its
identity, a dictionary of fields.  An object nothing was written to has no
fields.
-/

namespace HostBridge.Host

/-- The fields of all objects that have any. -/
abbrev Records := Dict Nat (Dict String Value)

namespace Records

/-- The fields of the object with an identity. -/
def fieldsOf (r : Records) (identity : Nat) : Dict String Value :=
  (r.find? identity).getD .empty

/-- The value of a field of an object. -/
def field? (r : Records) (identity : Nat) (name : String) : Option Value :=
  (r.fieldsOf identity).find? name

/-- Write a field of an object. -/
def write (r : Records) (identity : Nat) (name : String) (v : Value) : Records :=
  r.insert identity ((r.fieldsOf identity).insert name v)

end Records

/-- The identity of an object whose fields are among the records. -/
def Object.record? (o : Object) : Option Nat :=
  if o.payload = .store then some o.identity else none

end HostBridge.Host
