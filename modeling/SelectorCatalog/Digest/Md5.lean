import SelectorCatalog.Text.Hex

/-!
# MD5

The digest that identifies contents: four words of 32 bits, changed by 64 steps for each block of 64
bytes of the padded message.
-/

set_option autoImplicit false

namespace SelectorCatalog.Md5

/-- The four words of the digest. -/
structure State where
  a : UInt32
  b : UInt32
  c : UInt32
  d : UInt32

/-- The state before the first block. -/
def initial : State := ⟨0x67452301, 0xefcdab89, 0x98badcfe, 0x10325476⟩

/-- The constant of each step. -/
def constants : List UInt32 :=
  [0xd76aa478, 0xe8c7b756, 0x242070db, 0xc1bdceee, 0xf57c0faf, 0x4787c62a,
   0xa8304613, 0xfd469501, 0x698098d8, 0x8b44f7af, 0xffff5bb1, 0x895cd7be,
   0x6b901122, 0xfd987193, 0xa679438e, 0x49b40821, 0xf61e2562, 0xc040b340,
   0x265e5a51, 0xe9b6c7aa, 0xd62f105d, 0x02441453, 0xd8a1e681, 0xe7d3fbc8,
   0x21e1cde6, 0xc33707d6, 0xf4d50d87, 0x455a14ed, 0xa9e3e905, 0xfcefa3f8,
   0x676f02d9, 0x8d2a4c8a, 0xfffa3942, 0x8771f681, 0x6d9d6122, 0xfde5380c,
   0xa4beea44, 0x4bdecfa9, 0xf6bb4b60, 0xbebfbc70, 0x289b7ec6, 0xeaa127fa,
   0xd4ef3085, 0x04881d05, 0xd9d4d039, 0xe6db99e5, 0x1fa27cf8, 0xc4ac5665,
   0xf4292244, 0x432aff97, 0xab9423a7, 0xfc93a039, 0x655b59c3, 0x8f0ccc92,
   0xffeff47d, 0x85845dd1, 0x6fa87e4f, 0xfe2ce6e0, 0xa3014314, 0x4e0811a1,
   0xf7537e82, 0xbd3af235, 0x2ad7d2bb, 0xeb86d391]

/-- The rotations of the four rounds, each repeated over the round. -/
def rotations : List (List UInt32) :=
  [[7, 12, 17, 22], [5, 9, 14, 20], [4, 11, 16, 23], [6, 10, 15, 21]]

/-- Rotates a word to the left. -/
def rotateLeft (x n : UInt32) : UInt32 := (x <<< n) ||| (x >>> (32 - n))

/-- The least significant bytes of a number first. -/
def littleEndian : Nat → Nat → List UInt8
  | 0, _ => []
  | count + 1, n => UInt8.ofNat n :: littleEndian count (n / 256)

/-- The message with a one bit, zeros and its length in bits, a whole number of blocks. -/
def padded (message : List UInt8) : List UInt8 :=
  let length := message.length
  message ++ 0x80 :: List.replicate ((119 - length % 64) % 64) 0 ++ littleEndian 8 (8 * length)

/-- The words of a block. -/
def words : List UInt8 → List UInt32
  | b0 :: b1 :: b2 :: b3 :: rest =>
    (b0.toUInt32 ||| (b1.toUInt32 <<< 8) ||| (b2.toUInt32 <<< 16) ||| (b3.toUInt32 <<< 24))
      :: words rest
  | _ => []

/-- The mixing function of a round and the index of the message word of a step. -/
def mix (round step : Nat) (b c d : UInt32) : UInt32 × Nat :=
  match round with
  | 0 => ((b &&& c) ||| (~~~b &&& d), step)
  | 1 => ((d &&& b) ||| (~~~d &&& c), (5 * step + 1) % 16)
  | 2 => (b ^^^ c ^^^ d, (3 * step + 5) % 16)
  | _ => (c ^^^ (b ||| ~~~d), 7 * step % 16)

/-- One step on a block. -/
def step (block : Array UInt32) (s : State) (numbered : UInt32 × Nat) : State :=
  let (constant, i) := numbered
  let (f, g) := mix (i / 16) i s.b s.c s.d
  let rotation := ((rotations.getD (i / 16) []).getD (i % 4) 0)
  let sum := f + s.a + constant + block.getD g 0
  ⟨s.d, s.b + rotateLeft sum rotation, s.b, s.c⟩

/-- The state after one block. -/
def compress (s : State) (block : List UInt8) : State :=
  let t := constants.zipIdx.foldl (step (words block).toArray) s
  ⟨s.a + t.a, s.b + t.b, s.c + t.c, s.d + t.d⟩

/-- Cuts a list into `count` blocks of `size` items. -/
def blocks {α : Type} (size : Nat) : Nat → List α → List (List α)
  | 0, _ => []
  | count + 1, s => s.take size :: blocks size count (s.drop size)

/-- The sixteen bytes of the digest. -/
def digest (message : List UInt8) : List UInt8 :=
  let p := padded message
  let s := (blocks 64 (p.length / 64) p).foldl compress initial
  [s.a, s.b, s.c, s.d].flatMap fun w => littleEndian 4 w.toNat

/-- The digest in hexadecimal. -/
def hexDigest (message : List UInt8) : String := Text.hexBytes (digest message)

@[simp] theorem length_littleEndian (count n : Nat) : (littleEndian count n).length = count := by
  induction count generalizing n with
  | zero => rfl
  | succ count ih => simp [littleEndian, ih]

theorem length_digest (message : List UInt8) : (digest message).length = 16 := by
  simp [digest]

theorem length_hexDigest (message : List UInt8) : (hexDigest message).length = 32 := by
  rw [hexDigest, Text.length_hexBytes, length_digest]

end SelectorCatalog.Md5
