import HostBridge.Hash.XxHash64

/-!
# Identities of types

Types are told apart by a 64-bit identity computed from their spelling.  It is
the same in every program, so a type can be referred to before anything about it
is known.

A named type hashes its name.  A type built from others mixes the identities of
its arguments in order, each marked with its position to tell exchanged arguments
apart.
-/

namespace HostBridge

/-- The identity of a type. -/
structure TypeId where
  bits : UInt64
deriving DecidableEq, Repr

namespace TypeId

/-- The identity no type should have. -/
def none : TypeId := ⟨0⟩

/-- Whether this is the identity no type should have. -/
def isNone (i : TypeId) : Bool := i.bits == 0

/-- Marks the identities of named types. -/
def nameMark : UInt64 := 0x2fac10b63a6cc57c

/-- Marks the identities of composed types. -/
def composedMark : UInt64 := 0x3e9f5d2a8c7b1403

/-- The multiplier between two arguments.  It is odd. -/
def separator : UInt64 := 0x4bc94d6bd06053ad

/-- The marks of the first eight argument positions. -/
def positionMarks : List UInt64 := [
  0x9e3779b97f4a7c15, 0xbf58476d1ce4e5b9, 0x94d049bb133111eb, 0xd6e8feb86659fd93,
  0xe7037ed1a0b428db, 0xc6a4a7935bd1e995, 0x8648dbbc94d49b8d, 0xa2b48b2c69e0d657]

/-- The mark of an argument position.  Positions past the table count on from the
first mark. -/
def positionMark (i : Nat) : UInt64 :=
  positionMarks[i]?.getD (0x9e3779b97f4a7c15 + UInt64.ofNat i)

/-- The hash of a text. -/
def hashText (s : String) : UInt64 := Hash.xxHash64 0 s.toUTF8.toList

/-- The identity of the type with the given name. -/
def ofName (name : String) : TypeId := ⟨nameMark ^^^ hashText name⟩

/-- Mix in the arguments from position `i` on. -/
def mixArguments (acc : UInt64) (i : Nat) : List TypeId → UInt64
  | [] => acc
  | a :: rest => mixArguments (acc * separator + (positionMark i ^^^ a.bits)) (i + 1) rest

/-- The identity of the type built by `kind` from the given arguments. -/
def compose (kind : String) (arguments : List TypeId) : TypeId :=
  ⟨mixArguments (composedMark ^^^ hashText kind) 0 arguments⟩

/-- The identity as sixteen hexadecimal digits. -/
def hex (i : TypeId) : String :=
  let digits := Nat.toDigits 16 i.bits.toNat
  "0x" ++ String.ofList (List.replicate (16 - digits.length) '0' ++ digits)

/-- The identity as it is shown to programmers. -/
def describe (i : TypeId) : String := "TypeHash(" ++ i.hex ++ ")"

end TypeId

/-! ## Examples -/

example : (TypeId.ofName "The quick b").bits = 0x4e67cf95fc163d09 := by decide +kernel
example : TypeId.compose "Map" [⟨1⟩, ⟨2⟩] ≠ TypeId.compose "Map" [⟨2⟩, ⟨1⟩] := by decide +kernel

end HostBridge
