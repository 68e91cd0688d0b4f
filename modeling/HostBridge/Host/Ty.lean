import HostBridge.Dict
import HostBridge.Host.Class

/-!
# Host types

The type of a parameter, an environment value or a result on the host side.  A
method set written once for many element types uses type variables; they are
replaced through `Bindings` before anything else looks at the types.

`equal` identifies classes by name only, as `Class.same` does.  `accepts` says
which types of values may be given where a type is expected: `any` takes all but
nothing, a class takes its subclasses, an array takes arrays of what its
elements take, and a float takes an integer.  Lists, sets and maps take only
their own type.
-/

namespace HostBridge.Host

/-- A type of host values. -/
inductive Ty where
  | void
  | boolean
  /-- An integer of any width. -/
  | integer
  | float
  | string
  | any
  | object (c : Class)
  /-- A sequence of fixed length, the shape of a variadic parameter. -/
  | array (element : Ty)
  | list (element : Ty)
  | set (element : Ty)
  | map (key value : Ty)
  /-- Several results in order. -/
  | multi
  | var (name : String)
deriving Repr, Inhabited

/-- The types that type variables stand for. -/
abbrev Bindings := Dict String Ty

namespace Ty

/-! ## Spelling and identity -/

/-- The spelling of a type. -/
def display : Ty → String
  | .void => "void"
  | .boolean => "boolean"
  | .integer => "int"
  | .float => "double"
  | .string => "String"
  | .any => "Object"
  | .multi => "MultiReturn"
  | .object c => c.name
  | .array e => e.display ++ "[]"
  | .list e => "List<" ++ e.display ++ ">"
  | .set e => "Set<" ++ e.display ++ ">"
  | .map k v => "Map<" ++ k.display ++ ", " ++ v.display ++ ">"
  | .var name => name

/-- The identity of a type.  A built-in type is identified by its spelling, a
class by its name, a composed type by its parts. -/
def id : Ty → TypeId
  | .object c => c.id
  | .array e => .compose "Array" [e.id]
  | .list e => .compose "List" [e.id]
  | .set e => .compose "Set" [e.id]
  | .map k v => .compose "Map" [k.id, v.id]
  | .var name => .compose "Var" [.ofName name]
  | .void => .ofName "void"
  | .boolean => .ofName "boolean"
  | .integer => .ofName "int"
  | .float => .ofName "double"
  | .string => .ofName "String"
  | .any => .ofName "Object"
  | .multi => .ofName "MultiReturn"

/-- Whether two types are the same, classes being told apart by identity. -/
def equal : Ty → Ty → Bool
  | .void, .void => true
  | .boolean, .boolean => true
  | .integer, .integer => true
  | .float, .float => true
  | .string, .string => true
  | .any, .any => true
  | .object c, .object d => c.same d
  | .array e, .array e' => e.equal e'
  | .list e, .list e' => e.equal e'
  | .set e, .set e' => e.equal e'
  | .map k v, .map k' v' => k.equal k' && v.equal v'
  | .multi, .multi => true
  | .var x, .var y => x == y
  | _, _ => false

/-! ## Parts -/

/-- The type of the elements of an array, a list or a set. -/
def element? : Ty → Option Ty
  | .array e => some e
  | .list e => some e
  | .set e => some e
  | _ => none

/-- Whether the values of the type are arrays. -/
def isArray : Ty → Bool
  | .array _ => true
  | _ => false

/-- Whether the values of the type have their elements in order, so that they can
be split into several results. -/
def isOrdered : Ty → Bool
  | .array _ => true
  | .list _ => true
  | _ => false

/-- Whether a type variable occurs in the type. -/
def hasVariables : Ty → Bool
  | .var _ => true
  | .array e => e.hasVariables
  | .list e => e.hasVariables
  | .set e => e.hasVariables
  | .map k v => k.hasVariables || v.hasVariables
  | _ => false

/-- How deep conversion rules may go on one value: a rule asked for a type may ask
for one of smaller weight.  Classes and variables weigh more than built-in types
and less than anything composed. -/
def weight : Ty → Nat
  | .object _ => 1
  | .var _ => 1
  | .array e => e.weight + 2
  | .list e => e.weight + 2
  | .set e => e.weight + 2
  | .map k v => k.weight + v.weight + 2
  | _ => 0

/-! ## Relations -/

/-- Whether a value of type `got` may be given where `expected` is wanted. -/
def accepts : (expected got : Ty) → Bool
  | .any, .void => false
  | .any, _ => true
  | .object c, .object d => d.isA c
  | .array e, .array e' => e.accepts e'
  | .float, .integer => true
  | expected, got => expected.equal got

/-- The type with its variables replaced.  A variable must stand for a type
without variables; otherwise the answer names the first one that does not. -/
def resolve (bindings : Bindings) : Ty → Except String Ty
  | .var name =>
      match bindings.find? name with
      | some bound => if bound.hasVariables then .error name else .ok bound
      | none => .error name
  | .array e => do return .array (← e.resolve bindings)
  | .list e => do return .list (← e.resolve bindings)
  | .set e => do return .set (← e.resolve bindings)
  | .map k v => do
      let k ← k.resolve bindings
      let v ← v.resolve bindings
      return .map k v
  | ty => .ok ty

/-! ## Laws of equality -/

theorem equal_self (t : Ty) : t.equal t = true := by
  induction t with
  | object c => exact beq_self_eq_true c.id
  | array e ih => exact ih
  | list e ih => exact ih
  | set e ih => exact ih
  | map k v ihk ihv => exact Bool.and_eq_true_iff.mpr ⟨ihk, ihv⟩
  | var x => exact beq_self_eq_true x
  | _ => rfl

theorem equal_trans {a b c : Ty} (h : a.equal b = true) (h' : b.equal c = true) :
    a.equal c = true := by
  induction a generalizing b c with
  | object x =>
      cases b with
      | object y =>
          cases c with
          | object z => exact beq_iff_eq.mpr ((beq_iff_eq.mp h).trans (beq_iff_eq.mp h'))
          | _ => cases h'
      | _ => cases h
  | array e ih =>
      cases b with
      | array e' =>
          cases c with
          | array e'' => exact ih h h'
          | _ => cases h'
      | _ => cases h
  | list e ih =>
      cases b with
      | list e' =>
          cases c with
          | list e'' => exact ih h h'
          | _ => cases h'
      | _ => cases h
  | set e ih =>
      cases b with
      | set e' =>
          cases c with
          | set e'' => exact ih h h'
          | _ => cases h'
      | _ => cases h
  | map k v ihk ihv =>
      cases b with
      | map k' v' =>
          cases c with
          | map k'' v'' =>
              obtain ⟨hk, hv⟩ := Bool.and_eq_true_iff.mp h
              obtain ⟨hk', hv'⟩ := Bool.and_eq_true_iff.mp h'
              exact Bool.and_eq_true_iff.mpr ⟨ihk hk hk', ihv hv hv'⟩
          | _ => cases h'
      | _ => cases h
  | var x =>
      cases b with
      | var y =>
          cases beq_iff_eq.mp h
          exact h'
      | _ => cases h
  | _ =>
      -- A type without parts is equal to itself only.
      cases b <;> first | exact h' | cases h

end Ty

/-! ## Examples -/

example : (Ty.map .string (.array .float)).display = "Map<String, double[]>" := rfl
example : Ty.accepts .any .void = false := rfl
example : Ty.accepts (.array .float) (.array .integer) = true := rfl
example : Ty.accepts (.list .float) (.list .integer) = false := rfl
example : (Ty.list (.var "T")).resolve (Dict.empty.insert "T" .string) = .ok (.list .string) := rfl
example : (Ty.list (.var "T")).resolve Dict.empty = .error "T" := rfl

end HostBridge.Host
