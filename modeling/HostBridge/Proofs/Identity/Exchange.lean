import HostBridge.Binary
import HostBridge.Host.Ty

/-!
# Exchanging two arguments

A composed type mixes the identities of its arguments in order, and marks each with its
position.  This tells exchanged arguments apart, but not all of them.  The multiplier is odd,
so it leaves the highest bit of a word where it is, and the marks are taken out again.

How far this goes does not depend on what is composed (`compose_exchange_iff`).  Arguments
that agree in all but the two highest bits can be exchanged (`balance_eq_of_agree`).  For
others the first bit where they differ and the next one mostly suffice to see that they
cannot (`balance_ne_of_differ`).
-/

namespace HostBridge.TypeId

open scoped Binary

variable {a b : TypeId} {i p : Nat}

/-! ## Balance -/

/-- What two arguments have in common if they can be exchanged. -/
def balance (a : TypeId) : UInt64 :=
  (positionMark 0 ^^^ a.bits) * separator - (positionMark 1 ^^^ a.bits)

/-- To exchange two arguments makes no difference exactly if they have the same balance,
whatever they are composed to. -/
theorem compose_exchange_iff (kind : String) (a b : TypeId) :
    compose kind [a, b] = compose kind [b, a] ↔ a.balance = b.balance := by
  rw [compose, compose, mk.injEq, balance, balance]
  simp only [mixArguments]
  generalize composedMark ^^^ hashText kind = start
  generalize positionMark 0 ^^^ a.bits = x
  generalize positionMark 0 ^^^ b.bits = x'
  generalize positionMark (0 + 1) ^^^ a.bits = y
  constructor
  · intro h
    grind
  · intro h
    grind

/-- An argument with the mark of a position, as a number. -/
def marked (p : Nat) (a : TypeId) : Nat := (positionMark p ^^^ a.bits).toNat

theorem balance_eq_iff :
    a.balance = b.balance ↔
      ((2 ^ (64 : Nat) : Nat) : Int) ∣ ((a.marked 0 : Int) - b.marked 0) * separator.toNat -
        ((a.marked 1 : Int) - b.marked 1) := by
  have moved : a.balance = b.balance ↔
      (positionMark 0 ^^^ a.bits) * separator + (positionMark 1 ^^^ b.bits) =
        (positionMark 0 ^^^ b.bits) * separator + (positionMark 1 ^^^ a.bits) := by
    rw [balance, balance]
    constructor
    · intro h
      grind
    · intro h
      grind
  rw [moved, ← UInt64.toNat_inj, UInt64.toNat_add, UInt64.toNat_add, UInt64.toNat_mul,
    UInt64.toNat_mul]
  show (marked 0 a * 0x4bc94d6bd06053ad % 2 ^ 64 + marked 1 b) % 2 ^ 64 =
      (marked 0 b * 0x4bc94d6bd06053ad % 2 ^ 64 + marked 1 a) % 2 ^ 64 ↔
    ((2 ^ 64 : Nat) : Int) ∣ ((a.marked 0 : Int) - b.marked 0) * (0x4bc94d6bd06053ad : Nat) -
        ((a.marked 1 : Int) - b.marked 1)
  omega

/-! ## Bits that agree -/

/-- A bit of an identity, counted from the lowest. -/
def bit (a : TypeId) (i : Nat) : Bool := a.bits.toNat.testBit i

/-- A bit of the mark of a position. -/
def markBit (p i : Nat) : Bool := (positionMark p).toNat.testBit i

/-- All bits below a place agree. -/
def AgreeBelow (i : Nat) (a b : TypeId) : Prop := ∀ j < i, a.bit j = b.bit j

theorem testBit_marked (p : Nat) (a : TypeId) (i : Nat) :
    (a.marked p).testBit i = (markBit p i ^^ a.bit i) := by
  rw [marked, UInt64.toNat_xor, Nat.testBit_xor]
  rfl

/-- Marked arguments agree in a bit if the arguments do. -/
theorem testBit_marked_inj :
    (a.marked p).testBit i = (b.marked p).testBit i ↔ a.bit i = b.bit i := by
  rw [testBit_marked, testBit_marked, Bool.xor_right_inj]

/-- Marked arguments differ above the bits in which the arguments agree. -/
theorem sub_marked_of_agree (h : AgreeBelow i a b) (p : Nat) :
    (a.marked p : Int) - b.marked p =
      (2 ^ i : Nat) * ((a.marked p / 2 ^ i : Nat) - (b.marked p / 2 ^ i : Nat) : Int) := by
  have low : a.marked p % 2 ^ i = b.marked p % 2 ^ i := by
    refine Nat.eq_of_testBit_eq fun j => ?_
    rw [Nat.testBit_mod_two_pow, Nat.testBit_mod_two_pow, testBit_marked, testBit_marked]
    by_cases hj : j < i
    · rw [h j hj]
    · simp [hj]
  have left := Nat.div_add_mod (a.marked p) (2 ^ i)
  have right := Nat.div_add_mod (b.marked p) (2 ^ i)
  rw [Int.mul_sub, ← Int.natCast_mul, ← Int.natCast_mul]
  omega

/-- Only the bits from the first difference on decide. -/
theorem balance_eq_iff_of_agree (h : AgreeBelow i a b) (hi : i ≤ 64) :
    a.balance = b.balance ↔
      ((2 ^ (64 - i) : Nat) : Int) ∣
        ((a.marked 0 / 2 ^ i : Nat) - (b.marked 0 / 2 ^ i : Nat) : Int) * separator.toNat -
          ((a.marked 1 / 2 ^ i : Nat) - (b.marked 1 / 2 ^ i : Nat) : Int) := by
  have word : ((2 ^ (64 : Nat) : Nat) : Int) = (2 ^ i : Nat) * (2 ^ (64 - i) : Nat) := by
    rw [← Int.natCast_mul, ← Nat.pow_add, Nat.add_sub_cancel' hi]
  have nonzero : ((2 ^ i : Nat) : Int) ≠ 0 :=
    Int.natCast_ne_zero.mpr (Nat.ne_of_gt (Nat.two_pow_pos i))
  rw [balance_eq_iff, sub_marked_of_agree h, sub_marked_of_agree h, word, Int.mul_assoc,
    ← Int.mul_sub]
  exact Int.mul_dvd_mul_iff_left nonzero

/-! ## Arguments that can be exchanged -/

/-- The two highest bits of the first two marks are the same. -/
theorem markBit_high (j : Nat) : markBit 0 (62 + j) = markBit 1 (62 + j) := by
  match j with
  | 0 => rfl
  | 1 => rfl
  | j + 2 =>
      have beyond (p : Nat) : markBit p (62 + (j + 2)) = false := by
        refine Nat.testBit_lt_two_pow (Nat.lt_of_lt_of_le (UInt64.toNat_lt _) ?_)
        exact Nat.pow_le_pow_right Nat.two_pos (by omega)
      rw [beyond, beyond]

/-- Arguments that agree in all but the two highest bits have the same balance. -/
theorem balance_eq_of_agree (h : AgreeBelow 62 a b) : a.balance = b.balance := by
  have high (c : TypeId) : c.marked 0 / 2 ^ 62 = c.marked 1 / 2 ^ 62 := by
    refine Nat.eq_of_testBit_eq fun j => ?_
    rw [Nat.testBit_div_two_pow, Nat.testBit_div_two_pow, testBit_marked, testBit_marked,
      Nat.add_comm, markBit_high]
  rw [balance_eq_iff_of_agree h (by decide), high, high]
  show ((4 : Nat) : Int) ∣ _ * (0x4bc94d6bd06053ad : Nat) - _
  omega

/-! ## Arguments that cannot be exchanged -/

/-- Three bits of a number, from a place on. -/
def window (n i : Nat) : Fin 8 := ⟨n / 2 ^ i % 8, Nat.mod_lt _ (by decide)⟩

theorem testBit_window {j : Nat} (hj : j < 3) (n i : Nat) :
    (window n i).val.testBit j = n.testBit (i + j) := by
  show (n / 2 ^ i % 2 ^ 3).testBit j = _
  rw [Nat.testBit_mod_two_pow, Nat.testBit_div_two_pow, decide_eq_true hj, Bool.true_and,
    Nat.add_comm]

/-- The bits in which the first two marks differ. -/
def markChange : Nat := (positionMark 0 ^^^ positionMark 1).toNat

theorem testBit_markChange (i : Nat) : markChange.testBit i = (markBit 0 i ^^ markBit 1 i) := by
  rw [markChange, UInt64.toNat_xor, Nat.testBit_xor]
  rfl

/-- The second mark is the first one, changed. -/
theorem marked_one (a : TypeId) : a.marked 1 = markChange ^^^ a.marked 0 := by
  refine Nat.eq_of_testBit_eq fun j => ?_
  rw [Nat.testBit_xor, testBit_markChange, testBit_marked, testBit_marked]
  cases markBit 0 j <;> cases markBit 1 j <;> simp

theorem window_marked_one (a : TypeId) (i : Nat) :
    a.marked 1 / 2 ^ i % 8 = (window markChange i).val ^^^ (window (a.marked 0) i).val := by
  show a.marked 1 / 2 ^ i % 2 ^ 3 = _
  rw [marked_one, Nat.xor_div_two_pow, Nat.xor_mod_two_pow]
  rfl

/-- Three bits tell two marked arguments apart that differ in the first of them, unless the marks
differ in the second only and the arguments do too. -/
theorem window_ne : ∀ change x y : Fin 8, x.val.testBit 0 ≠ y.val.testBit 0 →
    (change.val.testBit 0 = true ∨ change.val.testBit 1 = false ∨
      x.val.testBit 1 = y.val.testBit 1) →
    ¬ (8 : Int) ∣ ((x.val : Int) - y.val) * 5 -
      (((change.val ^^^ x.val : Nat) : Int) - (change.val ^^^ y.val : Nat)) := by
  decide +kernel

/-- Arguments have different balances if their first difference is where the marks differ, or
if the marks or the arguments agree in the next bit. -/
theorem balance_ne_of_differ (hi : i < 62) (low : AgreeBelow i a b) (here : a.bit i ≠ b.bit i)
    (told : markBit 0 i ≠ markBit 1 i ∨ markBit 0 (i + 1) = markBit 1 (i + 1) ∨
      a.bit (i + 1) = b.bit (i + 1)) :
    a.balance ≠ b.balance := by
  intro same
  have whole := (balance_eq_iff_of_agree low (by omega)).mp same
  have eight : (8 : Int) ∣ (2 ^ (64 - i) : Nat) :=
    Int.natCast_dvd_natCast.mpr (Nat.pow_dvd_pow 2 (show 3 ≤ 64 - i by omega))
  have part := Int.dvd_trans eight whole
  refine window_ne (window markChange i) (window (a.marked 0) i) (window (b.marked 0) i) ?_ ?_ ?_
  · rw [testBit_window (by decide), testBit_window (by decide), ne_eq, testBit_marked_inj]
    exact here
  · simp only [testBit_window (show 0 < 3 by decide), testBit_window (show 1 < 3 by decide),
      testBit_markChange, testBit_marked_inj]
    refine told.imp bne_iff_ne.mpr (Or.imp_left fun same => ?_)
    rw [same, Bool.xor_self]
  · rw [← window_marked_one, ← window_marked_one]
    show _ ∣ ((a.marked 0 / 2 ^ i % 8 : Nat) - (b.marked 0 / 2 ^ i % 8 : Nat) : Int) * 5 - _
    have factor : (separator.toNat : Int) = 8 * 0x97929ad7a0c0a75 + 5 := rfl
    rw [factor] at part
    omega

instance (i : Nat) (a b : TypeId) : Decidable (AgreeBelow i a b) :=
  inferInstanceAs (Decidable (∀ j < i, a.bit j = b.bit j))

/-- When two arguments can be exchanged.  They can exactly if they have the same balance, which
is so for arguments that agree in all but the two highest bits.  They cannot if their first
difference is where the marks differ, or if the marks or the arguments agree in the next bit.
So a map type and the one with key and value exchanged are told apart exactly by balance. -/
theorem exchange_exact (kind : String) (a b : TypeId) :
    (compose kind [a, b] = compose kind [b, a] ↔ a.balance = b.balance) ∧
    (AgreeBelow 62 a b → compose kind [a, b] = compose kind [b, a]) ∧
    (∀ i < 62, AgreeBelow i a b → a.bit i ≠ b.bit i →
      markBit 0 i ≠ markBit 1 i ∨ markBit 0 (i + 1) = markBit 1 (i + 1) ∨
        a.bit (i + 1) = b.bit (i + 1) →
      compose kind [a, b] ≠ compose kind [b, a]) ∧
    ∀ s t : Host.Ty, s.id = a → t.id = b →
      ((Host.Ty.map s t).id = (Host.Ty.map t s).id ↔ a.balance = b.balance) := by
  refine ⟨compose_exchange_iff kind a b, fun agree => ?_, fun i hi low here told => ?_, ?_⟩
  · exact (compose_exchange_iff kind a b).mpr (balance_eq_of_agree agree)
  · rw [ne_eq, compose_exchange_iff]
    exact balance_ne_of_differ hi low here told
  · rintro s t rfl rfl
    exact compose_exchange_iff "Map" s.id t.id

/-- A class of drums. -/
def tenor : Host.Class := .root "Drum5824932482"

/-- Another class of drums, whose identity has one other bit, the highest but one. -/
def bass : Host.Class := .root "Drum9145322987"

/-- Integers and texts cannot be exchanged, but the drums can. -/
theorem exchange_exact_drums :
    compose "Map" [.ofName "int", .ofName "String"] ≠
      compose "Map" [.ofName "String", .ofName "int"] ∧
    (Host.Ty.map (.object tenor) (.object bass)).id =
      (Host.Ty.map (.object bass) (.object tenor)).id :=
  ⟨(exchange_exact "Map" _ _).2.2.1 2 (by decide) (by decide +kernel) (by decide +kernel)
      (by decide +kernel),
    (exchange_exact "Map" tenor.id bass.id).2.1 (by decide +kernel)⟩

/-- The order of arguments may be lost. -/
theorem not_order_kept :
    (tenor.id ≠ bass.id ∧ (Host.Ty.map (.object tenor) (.object bass)).id =
      (Host.Ty.map (.object bass) (.object tenor)).id) ∧
    ¬ ∀ (kind : String) (a b : TypeId), a ≠ b → compose kind [a, b] ≠ compose kind [b, a] := by
  have other : tenor.id ≠ bass.id := by decide +kernel
  have same : compose "Map" [tenor.id, bass.id] = compose "Map" [bass.id, tenor.id] := by
    decide +kernel
  exact ⟨⟨other, same⟩, fun kept => kept "Map" _ _ other same⟩

end HostBridge.TypeId
