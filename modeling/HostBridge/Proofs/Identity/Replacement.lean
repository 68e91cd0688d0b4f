import Mathlib.Algebra.Group.Basic
import Mathlib.Data.UInt
import HostBridge.TypeId

/-!
# Replacing one argument

Each step of mixing multiplies by the separator and adds an argument with its mark.  The
separator is odd, so a multiplication by it can be taken back (`separator_mul_inverse`).  If two
accumulators differ, then they still differ after every further step, whatever is added.  The
difference is multiplied once for each argument that follows (`mixArguments_sub`).

So an argument that is replaced by another one changes the identity, at any position and among
any number of arguments (`replacement_exact`).  This is about one argument at a time: it does not
say that two changes cannot make up for each other.
-/

namespace HostBridge.TypeId

variable {a b : TypeId} {d : UInt64} {i p : Nat}

/-! ## Differences of accumulators -/

/-- The multiplier that takes a multiplication by the separator back. -/
def separatorInverse : UInt64 := 0xd3f20f0a40208825

theorem separator_mul_inverse : separator * separatorInverse = 1 := by decide

/-- No difference is lost when it is multiplied by the separator. -/
theorem mul_separator_eq_zero_iff : d * separator = 0 ↔ d = 0 := by
  constructor
  · intro h
    calc d = d * (separator * separatorInverse) := by rw [separator_mul_inverse, UInt64.mul_one]
      _ = d * separator * separatorInverse := (UInt64.mul_assoc ..).symm
      _ = 0 := by rw [h, UInt64.zero_mul]
  · rintro rfl
    exact UInt64.zero_mul

/-- What a difference has become when so many more arguments are mixed in. -/
def carried (d : UInt64) : Nat → UInt64
  | 0 => d
  | n + 1 => carried (d * separator) n

theorem carried_eq_zero_iff (n : Nat) : carried d n = 0 ↔ d = 0 := by
  induction n generalizing d with
  | zero => exact Iff.rfl
  | succ n ih => rw [carried, ih, mul_separator_eq_zero_iff]

/-- The same arguments mixed into two accumulators carry their difference along. -/
theorem mixArguments_sub (acc acc' : UInt64) (p : Nat) (arguments : List TypeId) :
    mixArguments acc p arguments - mixArguments acc' p arguments =
      carried (acc - acc') arguments.length := by
  induction arguments generalizing acc acc' p with
  | nil => rfl
  | cons b rest ih =>
      have step : acc * separator + (positionMark p ^^^ b.bits) -
          (acc' * separator + (positionMark p ^^^ b.bits)) = (acc - acc') * separator := by
        rw [add_sub_add_right_eq_sub, UInt64.sub_mul]
      rw [mixArguments, mixArguments, ih, step]
      rfl

/-! ## The argument that is replaced -/

/-- An argument with the mark of its position, as it is added. -/
def markedAt (p : Nat) (a : TypeId) : UInt64 := positionMark p ^^^ a.bits

/-- A mark can be taken out again. -/
theorem markedAt_inj : markedAt p a = markedAt p b ↔ a = b := by
  rw [markedAt, markedAt, UInt64.xor_right_inj]
  constructor
  · intro h
    cases a
    cases b
    exact congrArg mk h
  · exact congrArg bits

/-- Two arguments at one position make the difference that they have when they are added there,
carried along by the arguments behind. -/
theorem mixArguments_set_sub (acc : UInt64) (p : Nat) {arguments : List TypeId}
    (hi : i < arguments.length) (a b : TypeId) :
    mixArguments acc p (arguments.set i a) - mixArguments acc p (arguments.set i b) =
      carried (markedAt (p + i) a - markedAt (p + i) b) (arguments.length - (i + 1)) := by
  induction arguments generalizing acc p i with
  | nil => exact absurd hi (Nat.not_lt_zero i)
  | cons c rest ih =>
      cases i with
      | zero =>
          have here : acc * separator + markedAt p a - (acc * separator + markedAt p b) =
              markedAt p a - markedAt p b := add_sub_add_left_eq_sub ..
          rw [List.set_cons_zero, List.set_cons_zero, mixArguments, mixArguments,
            mixArguments_sub]
          exact congrArg (carried · rest.length) here
      | succ i =>
          rw [List.set_cons_succ, List.set_cons_succ, mixArguments, mixArguments,
            ih _ (p + 1) (Nat.lt_of_succ_lt_succ hi), Nat.succ_add_eq_add_succ, List.length_cons,
            Nat.add_sub_add_right]

/-- The identities with one and with another argument at a position differ by what the
arguments differ in there, carried along.  So they are the same only if the arguments are, and to
replace an argument by another one changes the identity, whatever the other arguments are and
however many. -/
theorem replacement_exact (kind : String) {arguments : List TypeId} (hi : i < arguments.length)
    (a b : TypeId) :
    (compose kind (arguments.set i a)).bits - (compose kind (arguments.set i b)).bits =
        carried (markedAt i a - markedAt i b) (arguments.length - (i + 1)) ∧
      (compose kind (arguments.set i a) = compose kind (arguments.set i b) ↔ a = b) ∧
      (a ≠ arguments[i] → compose kind (arguments.set i a) ≠ compose kind arguments) := by
  have change := mixArguments_set_sub (composedMark ^^^ hashText kind) 0 hi
  rw [Nat.zero_add] at change
  have told (b : TypeId) :
      compose kind (arguments.set i a) = compose kind (arguments.set i b) ↔ a = b := by
    rw [compose, compose, mk.injEq, ← sub_eq_zero, change, carried_eq_zero_iff,
      sub_eq_zero, markedAt_inj]
  refine ⟨change a b, told b, fun other same => other ?_⟩
  refine (told arguments[i]).mp ?_
  rwa [List.set_getElem_self]

/-- The twelve semitones. -/
def semitones : List TypeId :=
  ["C", "Cis", "D", "Dis", "E", "F", "Fis", "G", "Gis", "A", "B", "H"].map ofName

/-- To replace the last semitone, which is past the eight marks, changes the identity. -/
theorem replacement_exact_semitones :
    11 < semitones.length ∧ ofName "Heses" ≠ semitones[11] ∧
      compose "Scale" (semitones.set 11 (ofName "Heses")) ≠ compose "Scale" semitones := by
  have other : ofName "Heses" ≠ semitones[11] := by decide +kernel
  exact ⟨by decide, other,
    (replacement_exact "Scale" (by decide) (ofName "Heses") (ofName "H")).2.2 other⟩

end HostBridge.TypeId
