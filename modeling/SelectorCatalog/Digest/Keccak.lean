import SelectorCatalog.Digest.Md5

/-!
# Keccak-256

The digest whose first four bytes select a function of a contract. The state is 25 lanes of 64 bits,
the lane of column `x` and row `y` at index `5 * y + x`; a message is absorbed in blocks of 136
bytes, padded with the bits `1 0* 1`, and the first 32 bytes of the state are the digest.
-/

set_option autoImplicit false

namespace SelectorCatalog.Keccak

/-- The constant that each round adds to the first lane. -/
def roundConstants : List UInt64 :=
  [0x0000000000000001, 0x0000000000008082, 0x800000000000808a, 0x8000000080008000,
   0x000000000000808b, 0x0000000080000001, 0x8000000080008081, 0x8000000000008009,
   0x000000000000008a, 0x0000000000000088, 0x0000000080008009, 0x000000008000000a,
   0x000000008000808b, 0x800000000000008b, 0x8000000000008089, 0x8000000000008003,
   0x8000000000008002, 0x8000000000000080, 0x000000000000800a, 0x800000008000000a,
   0x8000000080008081, 0x8000000000008080, 0x0000000080000001, 0x8000000080008008]

/-- The rotation of each lane. -/
def rotations : List UInt64 :=
  [0, 1, 62, 28, 27, 36, 44, 6, 55, 20, 3, 10, 43,
   25, 39, 41, 45, 15, 21, 8, 18, 2, 61, 56, 14]

/-- The bytes absorbed at a time. -/
def rate : Nat := 136

/-- The lane at an index. -/
def lane (s : List UInt64) (i : Nat) : UInt64 := s.getD i 0

/-- Rotates a lane to the left. -/
def rotateLeft (x n : UInt64) : UInt64 := if n == 0 then x else (x <<< n) ||| (x >>> (64 - n))

/-- Adds to each lane the parities of two neighbouring columns. -/
def theta (s : List UInt64) : List UInt64 :=
  let parity := (List.range 5).map fun x =>
    lane s x ^^^ lane s (x + 5) ^^^ lane s (x + 10) ^^^ lane s (x + 15) ^^^ lane s (x + 20)
  let change := (List.range 5).map fun x =>
    lane parity ((x + 4) % 5) ^^^ rotateLeft (lane parity ((x + 1) % 5)) 1
  s.zipIdx.map fun (l, i) => l ^^^ lane change (i % 5)

/-- Rotates every lane and moves it: column `x` and row `y` of the result hold the lane that stood
in column `x + 3 * y` and row `x`. -/
def rhoPi (s : List UInt64) : List UInt64 :=
  let rotated := s.zipIdx.map fun (l, i) => rotateLeft l (rotations.getD i 0)
  (List.range 25).map fun i =>
    let x := i % 5
    let y := i / 5
    lane rotated (5 * x + (x + 3 * y) % 5)

/-- Mixes each lane with the next two of its row. -/
def chi (s : List UInt64) : List UInt64 :=
  (List.range 25).map fun i =>
    let row := 5 * (i / 5)
    lane s i ^^^ (~~~lane s (row + (i + 1) % 5) &&& lane s (row + (i + 2) % 5))

/-- One round. -/
def round (s : List UInt64) (constant : UInt64) : List UInt64 :=
  match chi (rhoPi (theta s)) with
  | first :: rest => (first ^^^ constant) :: rest
  | [] => []

/-- The permutation of the state. -/
def permute (s : List UInt64) : List UInt64 := roundConstants.foldl round s

/-- The message and its padding, a whole number of blocks. -/
def padded (message : List UInt8) : List UInt8 :=
  let gap := rate - message.length % rate
  message ++ if gap = 1 then [0x81] else 0x01 :: List.replicate (gap - 2) 0 ++ [0x80]

/-- The lanes of a block, least significant byte first. -/
def lanes (block : List UInt8) : List UInt64 :=
  (Md5.blocks 8 (block.length / 8) block).map fun bytes =>
    bytes.foldr (fun b w => (w <<< 8) ||| b.toUInt64) 0

/-- Adds a block to the state and permutes it. -/
def absorb (s : List UInt64) (block : List UInt8) : List UInt64 :=
  let added := lanes block
  permute (s.zipIdx.map fun (l, i) => l ^^^ added.getD i 0)

/-- The 32 bytes of the digest. -/
def digest (message : List UInt8) : List UInt8 :=
  let p := padded message
  let s := (Md5.blocks rate (p.length / rate) p).foldl absorb (List.replicate 25 0)
  (s.take 4).flatMap fun w => Md5.littleEndian 8 w.toNat

end SelectorCatalog.Keccak
