import HostBridge.Host.Value

/-!
# Forms of host data

A host function asks for its arguments in a *form*: an integer of some width, a
floating-point number of single or double precision, a truth value, a text, a
value or object as it is, something that may be absent, or a list.  Each form
has a type of data, `Form.Data`.

`Form.extract` reads a value in a form and fails with a `ConversionError`.  It
never wraps or saturates: an integer outside the range of its width is an
error.  Integers are read as floating-point numbers where these are asked for.
`Form.embed` writes data of a form as a value.  An integer too large for 64
signed bits is written as a floating-point number.
-/

namespace HostBridge

/-! ## Integer widths -/

/-- The widths of integers a host function may ask for. -/
inductive Host.Width where
  | int8
  | int16
  | int32
  | int64
  | intSize
  | nat8
  | nat16
  | nat32
  | nat64
  | natSize
deriving DecidableEq, Repr

namespace Host.Width

/-- The width as it is spelled in messages. -/
def name : Width → String
  | .int8 => "i8"
  | .int16 => "i16"
  | .int32 => "i32"
  | .int64 => "i64"
  | .intSize => "isize"
  | .nat8 => "u8"
  | .nat16 => "u16"
  | .nat32 => "u32"
  | .nat64 => "u64"
  | .natSize => "usize"

/-- The least integer of the width. -/
def least : Width → Int
  | .int8 => -0x80
  | .int16 => -0x8000
  | .int32 => -0x80000000
  | .int64 => -0x8000000000000000
  | .intSize => -0x8000000000000000
  | _ => 0

/-- The greatest integer of the width. -/
def greatest : Width → Int
  | .int8 => 0x7f
  | .int16 => 0x7fff
  | .int32 => 0x7fffffff
  | .int64 => 0x7fffffffffffffff
  | .intSize => 0x7fffffffffffffff
  | .nat8 => 0xff
  | .nat16 => 0xffff
  | .nat32 => 0xffffffff
  | .nat64 => 0xffffffffffffffff
  | .natSize => 0xffffffffffffffff

/-- The integers of the width. -/
def Holds (w : Width) (i : Int) : Prop := w.least ≤ i ∧ i ≤ w.greatest

instance (w : Width) (i : Int) : Decidable (w.Holds i) :=
  inferInstanceAs (Decidable (_ ∧ _))

theorem holds_toInt (n : Int64) : int64.Holds n.toInt :=
  ⟨n.le_toInt, Int.le_of_lt_add_one n.toInt_lt⟩

theorem toInt_ofInt {i : Int} (h : int64.Holds i) : (Int64.ofInt i).toInt = i :=
  Int64.toInt_ofInt_of_le h.1 (Int.lt_add_one_of_le h.2)

end Host.Width

/-! ## Forms -/

/-- A form in which a host function asks for a value. -/
inductive Host.Form where
  | integer (w : Width)
  /-- A number of single precision. -/
  | single
  /-- A number of double precision. -/
  | double
  | boolean
  | string
  /-- Any value, as it is. -/
  | value
  | object
  /-- Something that may be absent. -/
  | option (f : Form)
  | list (f : Form)
deriving DecidableEq, Repr

namespace Host.Form

/-- The form as it is spelled in messages about a missing value. -/
def name : Form → String
  | .integer w => w.name
  | .single => "f32"
  | .double => "f64"
  | .boolean => "bool"
  | .string => "String"
  | .value => "value"
  | .object => "object"
  | .option f => f.name
  | .list _ => "array"

/-- The data of a form. -/
def Data : Form → Type
  | .integer w => { i : Int // w.Holds i }
  | .single => Binary32
  | .double => Binary64
  | .boolean => Bool
  | .string => String
  | .value => Value
  | .object => Object
  | .option f => Option f.Data
  | .list f => List f.Data

end Host.Form

/-! ## Errors of conversion -/

/-- Why a value could not be converted. -/
inductive ConversionError where
  /-- The value is of another kind. -/
  | mismatch (expected actual : Host.Kind)
  /-- The integer is outside the range of the width. -/
  | overflow (value : Int64) (width : Host.Width)
  /-- There is no value. -/
  | missing (form : Host.Form)
  /-- Scripts have nothing like the value. -/
  | unrepresentable (typeName : String)

/-- The message of a conversion error. -/
def ConversionError.message : ConversionError → String
  | .mismatch expected actual =>
      "type mismatch: expected " ++ expected.name ++ ", got " ++ actual.name
  | .overflow value width =>
      "integer overflow: " ++ toString value.toInt ++ " doesn't fit in " ++ width.name
  | .missing form => "null cannot be converted to " ++ form.name
  | .unrepresentable typeName =>
      "no script representation for native value of type '" ++ typeName ++ "'"

namespace Host.Form

/-! ## Reading and writing -/

/-- Read a value in a form. -/
def extract : (f : Form) → Value → Except ConversionError f.Data
  | .integer w, v =>
      match v with
      | .integer n => if h : w.Holds n.toInt then .ok ⟨n.toInt, h⟩ else .error (.overflow n w)
      | .null => .error (.missing (.integer w))
      | other => .error (.mismatch .integer other.kind)
  | .single, v =>
      match v with
      | .float x => .ok (x.convert : Binary32)
      | .integer n => .ok (.ofInt n.toInt : Binary32)
      | .null => .error (.missing .single)
      | other => .error (.mismatch .float other.kind)
  | .double, v =>
      match v with
      | .float x => .ok x
      | .integer n => .ok (.ofInt n.toInt : Binary64)
      | .null => .error (.missing .double)
      | other => .error (.mismatch .float other.kind)
  | .boolean, v =>
      match v with
      | .boolean b => .ok b
      | .null => .error (.missing .boolean)
      | other => .error (.mismatch .boolean other.kind)
  | .string, v =>
      match v with
      | .string s => .ok s
      | .null => .error (.missing .string)
      | other => .error (.mismatch .string other.kind)
  | .value, v => .ok v
  | .object, v =>
      match v with
      | .object o => .ok o
      | .null => .error (.missing .object)
      | other => .error (.mismatch .object other.kind)
  | .option f, v =>
      match v with
      | .null => .ok none
      | other => (f.extract other).map some
  | .list f, v =>
      match v with
      | .array items => items.mapM f.extract
      | .list items => items.mapM f.extract
      | .multi items => items.mapM f.extract
      | .null => .error (.missing (.list f))
      | other => .error (.mismatch .array other.kind)

/-- Write an integer as a value: as an integer if 64 signed bits hold it, as a
floating-point number otherwise. -/
def embedInt (i : Int) : Value :=
  if Width.int64.Holds i then .integer (.ofInt i) else .float (.ofInt i)

/-- Write data of a form as a value. -/
def embed : (f : Form) → f.Data → Value
  | .integer _, i => embedInt i.val
  | .single, x => .float (x : Binary32).convert
  | .double, x => .float x
  | .boolean, b => .boolean b
  | .string, s => .string s
  | .value, v => v
  | .object, o => .object o
  | .option f, d =>
      match d with
      | none => .null
      | some d => f.embed d
  | .list f, ds => .array (ds.map f.embed)

end Host.Form

end HostBridge
