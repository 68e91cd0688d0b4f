import HostBridge.Classification
import HostBridge.Converter

/-!
# Script arguments

An `Argument` describes one parameter that the script supplies: its name and
documentation, the host type its value is converted to, and where that value
stands among the parameters of the host function.

The arguments of a call are read from one list of script values, from left to
right.  A required argument takes one value, which must not be nil.  An optional
one takes one value, and nil or the end of the list stands for null.  A variadic
one takes all values that are left and collects them in an array.  Reading stops
at the first value that does not fit; that value has been taken by then.
-/

namespace HostBridge

/-! ## Errors -/

/-- Why the script arguments of a call were refused. -/
inductive ArgumentError where
  /-- The values ended before a required argument. -/
  | notEnough (name : String)
  /-- An argument that must have a value received nil. -/
  | isNil (name : String)
  /-- The value has no counterpart of the host type. -/
  | inconvertible (name : String) (value : Script.Value) (target : Host.Ty)
  /-- There are more values than arguments. -/
  | tooMany (expected got : Nat)

/-- The message of an argument error. -/
def ArgumentError.message : ArgumentError → String
  | .notEnough name => "Not enough arguments, first missing: " ++ name
  | .isNil name => "Argument " ++ name ++ " cannot be null"
  | .inconvertible name value target =>
      "Failed to convert arg '" ++ name ++ "' value '" ++ value.display ++ "' to '"
        ++ target.display ++ "'"
  | .tooMany expected got =>
      "Too many arguments, expected at most " ++ toString expected ++ ", got " ++ toString got

/-! ## Descriptions -/

/-- How many script values an argument takes. -/
inductive Presence where
  /-- One value, which must not be nil. -/
  | required
  /-- One value or none. -/
  | optional
  /-- All values that are left, among which there may be nils if `nullable`. -/
  | variadic (nullable : Bool)
deriving DecidableEq, Repr

/-- One parameter that the script supplies. -/
structure Argument where
  name : String
  description : String
  /-- What its values look like to scripts; of a variadic argument, one element. -/
  shape : Script.Shape
  /-- The host type its value is converted to; of a variadic argument, the array type. -/
  ty : Host.Ty
  /-- The position of its value among the parameters of the host function. -/
  index : Nat
  /-- How many values it takes. -/
  presence : Presence

namespace Argument

/-- The one word scripts see for the argument. -/
def tag (a : Argument) : Script.Tag := a.shape.toTag

/-- Whether the argument takes the rest of the values. -/
def isVariadic (a : Argument) : Bool :=
  match a.presence with
  | .variadic _ => true
  | _ => false

/-- Whether scripts are told that a value may be missing. -/
def isOptional (a : Argument) : Bool := a.presence = .optional || a.presence = .variadic true

/-- The argument in a signature. -/
def doc (a : Argument) : String :=
  match a.presence with
  | .required => a.name
  | .optional => a.name ++ "?"
  | .variadic _ => a.name ++ "..."

/-- The table that describes the argument to scripts. -/
def describe (a : Argument) : Script.Table := [
  (.string "name", .string a.name),
  (.string "type", .string a.shape.display),
  (.string "description", .string a.description),
  (.string "optional", .boolean a.isOptional),
  (.string "variadic", .boolean a.isVariadic)]

/-! ## Reading -/

/-- Convert one value to a type. -/
def convert (a : Argument) (converter : Converter) (ty : Host.Ty) (value : Script.Value) :
    Except ArgumentError Host.Value :=
  match converter.toHost value ty with
  | some converted => .ok converted
  | none => .error (.inconvertible a.name value ty)

/-- The type of each value a variadic argument takes. -/
def elementType (a : Argument) : Host.Ty := a.ty.element?.getD .any

/-- Convert one of the values of a variadic argument. -/
def convertElement (a : Argument) (converter : Converter) (nullable : Bool) :
    Script.Value → Except ArgumentError Host.Value
  | .nil => if nullable then .ok .null else .error (.isNil a.name)
  | value => a.convert converter a.elementType value

/-- Convert values until the list ends or one is refused.  The second part holds
the values not taken. -/
def readAll (one : Script.Value → Except ArgumentError Host.Value) :
    List Script.Value → Except ArgumentError (List Host.Value) × List Script.Value
  | [] => (.ok [], [])
  | v :: rest =>
      match one v with
      | .error e => (.error e, rest)
      | .ok converted =>
          let (result, left) := readAll one rest
          (result.map (converted :: ·), left)

/-- Read the argument from the values of a call.  The second part holds the
values not taken. -/
def read (a : Argument) (converter : Converter) (values : List Script.Value) :
    Except ArgumentError Host.Value × List Script.Value :=
  match a.presence, values with
  | .required, [] => (.error (.notEnough a.name), [])
  | .required, .nil :: rest => (.error (.isNil a.name), rest)
  | .required, v :: rest => (a.convert converter a.ty v, rest)
  | .optional, [] => (.ok .null, [])
  | .optional, .nil :: rest => (.ok .null, rest)
  | .optional, v :: rest => (a.convert converter a.ty v, rest)
  | .variadic nullable, values =>
      let (result, left) := readAll (a.convertElement converter nullable) values
      (result.map .array, left)

end Argument

end HostBridge
