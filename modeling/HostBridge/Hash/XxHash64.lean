/-!
# The 64-bit xxHash

A fast hash of a byte string with a 64-bit seed.  Bytes are read as
little-endian words of eight.  Four running lanes take four words at a time;
when fewer than four words are left the lanes are merged, and the rest goes in
by words, then by one half word, then by bytes.  A final mix spreads every bit.
-/

namespace HostBridge.Hash

/-- The first multiplier. -/
def prime1 : UInt64 := 0x9E3779B185EBCA87

/-- The second multiplier. -/
def prime2 : UInt64 := 0xC2B2AE3D27D4EB4F

/-- The third multiplier. -/
def prime3 : UInt64 := 0x165667B19E3779F9

/-- The fourth multiplier. -/
def prime4 : UInt64 := 0x85EBCA77C2B2AE63

/-- The fifth multiplier. -/
def prime5 : UInt64 := 0x27D4EB2F165667C5

/-- Rotate a word to the left by `k` bits, `0 < k < 64`. -/
def rotateLeft (x : UInt64) (k : UInt64) : UInt64 := (x <<< k) ||| (x >>> (64 - k))

/-- A little-endian number, least byte first. -/
def littleEndian : List UInt8 → UInt64
  | [] => 0
  | b :: rest => b.toUInt64 ||| (littleEndian rest <<< 8)

/-- The whole words of a byte string and the fewer than eight bytes behind them. -/
def splitWords : List UInt8 → List UInt64 × List UInt8
  | b₀ :: b₁ :: b₂ :: b₃ :: b₄ :: b₅ :: b₆ :: b₇ :: rest =>
      let (words, tail) := splitWords rest
      (littleEndian [b₀, b₁, b₂, b₃, b₄, b₅, b₆, b₇] :: words, tail)
  | tail => ([], tail)

/-- One step of a lane. -/
def laneStep (lane word : UInt64) : UInt64 :=
  rotateLeft (lane + word * prime2) 31 * prime1

/-- The four running lanes. -/
structure Lanes where
  /-- The lane of the first word of each four. -/
  first : UInt64
  second : UInt64
  third : UInt64
  fourth : UInt64

/-- The lanes before any word. -/
def Lanes.start (seed : UInt64) : Lanes :=
  ⟨seed + prime1 + prime2, seed + prime2, seed, seed - prime1⟩

/-- Take four words at a time.  Fewer than four words are left over. -/
def Lanes.absorb (l : Lanes) : List UInt64 → Lanes × List UInt64
  | w₀ :: w₁ :: w₂ :: w₃ :: rest =>
      Lanes.absorb
        ⟨laneStep l.first w₀, laneStep l.second w₁, laneStep l.third w₂, laneStep l.fourth w₃⟩
        rest
  | rest => (l, rest)
termination_by structural ws => ws

/-- Fold one lane into the merged word. -/
def mergeLane (acc lane : UInt64) : UInt64 :=
  (acc ^^^ laneStep 0 lane) * prime1 + prime4

/-- The word that stands for all four lanes. -/
def Lanes.merge (l : Lanes) : UInt64 :=
  let acc := rotateLeft l.first 1 + rotateLeft l.second 7 + rotateLeft l.third 12
    + rotateLeft l.fourth 18
  [l.first, l.second, l.third, l.fourth].foldl mergeLane acc

/-- Mix in a word of the rest. -/
def mixWord (acc word : UInt64) : UInt64 :=
  rotateLeft (acc ^^^ laneStep 0 word) 27 * prime1 + prime4

/-- Mix in a half word of the rest. -/
def mixHalf (acc half : UInt64) : UInt64 :=
  rotateLeft (acc ^^^ (half * prime1)) 23 * prime2 + prime3

/-- Mix in a byte of the rest. -/
def mixByte (acc : UInt64) (byte : UInt8) : UInt64 :=
  rotateLeft (acc ^^^ (byte.toUInt64 * prime5)) 11 * prime1

/-- Mix in the fewer than eight bytes at the end: a half word if there is one,
then single bytes. -/
def mixTail (acc : UInt64) : List UInt8 → UInt64
  | b₀ :: b₁ :: b₂ :: b₃ :: rest =>
      rest.foldl mixByte (mixHalf acc (littleEndian [b₀, b₁, b₂, b₃]))
  | rest => rest.foldl mixByte acc

/-- The final mix. -/
def avalanche (x : UInt64) : UInt64 :=
  let x := (x ^^^ (x >>> 33)) * prime2
  let x := (x ^^^ (x >>> 29)) * prime3
  x ^^^ (x >>> 32)

/-- The hash of a byte string. -/
def xxHash64 (seed : UInt64) (bytes : List UInt8) : UInt64 :=
  let (words, tail) := splitWords bytes
  let (lanes, restWords) := (Lanes.start seed).absorb words
  let start := if words.length < 4 then seed + prime5 else lanes.merge
  let acc := start + bytes.length.toUInt64
  avalanche (mixTail (restWords.foldl mixWord acc) tail)

/-! ## Examples -/

example : xxHash64 0 [] = 0xef46db3751d8e999 := by decide +kernel
example : xxHash64 0 [97] = 0xd24ec4f1a98c6e5b := by decide +kernel
example : xxHash64 0 [97, 98, 99] = 0x44bc2cf5ad770999 := by decide +kernel

end HostBridge.Hash
