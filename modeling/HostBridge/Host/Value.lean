import HostBridge.Binary.Rounding
import HostBridge.Host.Class

/-!
# Host values

What host functions take and return.  Integers have 64 bits and floating-point
numbers double precision, whatever width the host uses.  An array is also the
shape of collected variadic arguments, and `multi` holds several results in
order.

An object is a handle: its class, a payload the host put in, and an identity.
Two handles are of the same object when their identities agree.  An object with
a mutable payload has its state outside, in the state of the host, under its
identity.
-/

namespace HostBridge.Host

/-- What a host object carries. -/
inductive Payload where
  | unit
  | integer (n : Int64)
  | text (s : String)
  /-- A record of fields kept in the state of the host. -/
  | store
  /-- The converter of the call the object is handed to. -/
  | converter
deriving DecidableEq, Repr

/-- The integer an object carries. -/
def Payload.integer? : Payload → Option Int64
  | .integer n => some n
  | _ => none

/-- The text an object carries. -/
def Payload.text? : Payload → Option String
  | .text s => some s
  | _ => none

/-- A handle of a host object. -/
structure Object where
  cls : Class
  payload : Payload
  /-- The identity.  Zero is for objects made while values are converted. -/
  identity : Nat
deriving Repr

/-- Whether two handles are of the same object. -/
def Object.same (a b : Object) : Bool := a.identity == b.identity

/-- The object as it is shown to programmers. -/
def Object.describe (o : Object) : String := "NativeObject(" ++ o.cls.name ++ ")"

/-- A value of the host. -/
inductive Value where
  | null
  | boolean (b : Bool)
  | integer (n : Int64)
  | float (x : Binary64)
  | string (s : String)
  /-- A sequence of fixed length. -/
  | array (items : List Value)
  /-- An ordered or unordered collection. -/
  | list (items : List Value)
  /-- Keys with values, in order. -/
  | map (entries : List (Value × Value))
  | object (o : Object)
  /-- Several results in order. -/
  | multi (items : List Value)
deriving Repr, Inhabited

/-- The kinds of host values. -/
inductive Kind where
  | null
  | boolean
  | integer
  | float
  | string
  | array
  | list
  | map
  | object
  | multi
deriving DecidableEq, Repr

/-- The kind as it is spelled in messages. -/
def Kind.name : Kind → String
  | .null => "null"
  | .boolean => "bool"
  | .integer => "int"
  | .float => "float"
  | .string => "string"
  | .array => "array"
  | .list => "list"
  | .map => "map"
  | .object => "object"
  | .multi => "multi"

namespace Value

/-- The kind of a value. -/
def kind : Value → Kind
  | .null => .null
  | .boolean _ => .boolean
  | .integer _ => .integer
  | .float _ => .float
  | .string _ => .string
  | .array _ => .array
  | .list _ => .list
  | .map _ => .map
  | .object _ => .object
  | .multi _ => .multi

/-- Whether the value is null. -/
def isNull : Value → Bool
  | .null => true
  | _ => false

/-- The handle of an object value. -/
def object? : Value → Option Object
  | .object o => some o
  | _ => none

/-- The items of a value that holds a sequence. -/
def items? : Value → Option (List Value)
  | .array items => some items
  | .list items => some items
  | .multi items => some items
  | _ => none

/-! ## Size -/

mutual

/-- The number of values a value is made of, not counting itself. -/
def weight : Value → Nat
  | .array items => weightItems items
  | .list items => weightItems items
  | .multi items => weightItems items
  | .map entries => weightEntries entries
  | _ => 0
termination_by structural v => v

/-- The number of values a list of items is made of. -/
def weightItems : List Value → Nat
  | [] => 0
  | v :: rest => v.weight + weightItems rest + 1
termination_by structural vs => vs

/-- The number of values a list of entries is made of, two for each entry. -/
def weightEntries : List (Value × Value) → Nat
  | [] => 0
  | (k, v) :: rest => k.weight + v.weight + weightEntries rest + 2
termination_by structural es => es

end

/-- An item weighs less than the items together. -/
theorem weight_lt_of_mem_items {items : List Value} {v : Value} (h : v ∈ items) :
    v.weight < weightItems items := by
  induction items with
  | nil => simp at h
  | cons w rest ih =>
      simp only [weightItems]
      rcases List.mem_cons.mp h with rfl | hm
      · omega
      · have := ih hm
        omega

/-- A key or a value of an entry weighs less than the entries together. -/
theorem weight_lt_of_mem_entries {es : List (Value × Value)} {k v : Value} (h : (k, v) ∈ es) :
    k.weight < weightEntries es ∧ v.weight < weightEntries es := by
  induction es with
  | nil => simp at h
  | cons e rest ih =>
      obtain ⟨k', v'⟩ := e
      simp only [weightEntries]
      rcases List.mem_cons.mp h with heq | hm
      · injection heq with hk hv
        subst hk hv
        omega
      · have := ih hm
        omega

/-! ## Equality -/

mutual

/-- Equality of host values: floats as numbers, objects by identity, everything
else part by part. -/
def equal : Value → Value → Bool
  | .null, .null => true
  | .boolean a, .boolean b => a == b
  | .integer a, .integer b => a == b
  | .float x, .float y => x.equal y
  | .string a, .string b => a == b
  | .array a, .array b => equalItems a b
  | .list a, .list b => equalItems a b
  | .map a, .map b => equalEntries a b
  | .object a, .object b => a.same b
  | .multi a, .multi b => equalItems a b
  | _, _ => false
termination_by structural v => v

/-- Equality of lists of items. -/
def equalItems : List Value → List Value → Bool
  | [], [] => true
  | v :: rest, v' :: rest' => v.equal v' && equalItems rest rest'
  | _, _ => false
termination_by structural vs => vs

/-- Equality of lists of entries. -/
def equalEntries : List (Value × Value) → List (Value × Value) → Bool
  | [], [] => true
  | (k, v) :: rest, (k', v') :: rest' => k.equal k' && v.equal v' && equalEntries rest rest'
  | _, _ => false
termination_by structural es => es

end

end Value

end HostBridge.Host
