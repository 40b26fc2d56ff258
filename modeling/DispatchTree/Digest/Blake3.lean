/-!
# The BLAKE3 digest

The digest of a byte string: the string is cut into chunks of 1024 bytes, each chunk is compressed block by block, and the chunk
values are joined two by two until one node remains. The last compression is marked as the root and gives the 32 bytes.
-/

namespace DispatchTree.Blake3

/-- Eight words: the value of a chunk or of a node. -/
abbrev Value := Vector UInt32 8

/-- Sixteen words: a block, or the state of a compression. -/
abbrev Words := Vector UInt32 16

/-- The value every chunk starts from. -/
def initial : Value :=
  #v[0x6a09e667, 0xbb67ae85, 0x3c6ef372, 0xa54ff53a, 0x510e527f, 0x9b05688c, 0x1f83d9ab, 0x5be0cd19]

/-- The mark of the first block of a chunk. -/
def chunkStart : UInt32 := 1

/-- The mark of the last block of a chunk. -/
def chunkEnd : UInt32 := 2

/-- The mark of a node above chunks. -/
def parent : UInt32 := 4

/-- The mark of the last compression. -/
def root : UInt32 := 8

/-- The bytes of a block. -/
def blockSize : Nat := 64

/-- The bytes of a chunk. -/
def chunkSize : Nat := 1024

/-- A word turned right by a number of bits between 1 and 31. -/
def rotateRight (x : UInt32) (n : UInt32) : UInt32 := (x >>> n) ||| (x <<< (32 - n))

/-- Mixes two words of the block into a column or diagonal of the state. -/
def mix (s : Words) (a b c d : Fin 16) (x y : UInt32) : Words :=
  let s := s.set a (s[a] + s[b] + x)
  let s := s.set d (rotateRight (s[d] ^^^ s[a]) 16)
  let s := s.set c (s[c] + s[d])
  let s := s.set b (rotateRight (s[b] ^^^ s[c]) 12)
  let s := s.set a (s[a] + s[b] + y)
  let s := s.set d (rotateRight (s[d] ^^^ s[a]) 8)
  let s := s.set c (s[c] + s[d])
  s.set b (rotateRight (s[b] ^^^ s[c]) 7)

/-- One round: the columns, then the diagonals. -/
def round (s m : Words) : Words :=
  let s := mix s 0 4 8 12 m[0] m[1]
  let s := mix s 1 5 9 13 m[2] m[3]
  let s := mix s 2 6 10 14 m[4] m[5]
  let s := mix s 3 7 11 15 m[6] m[7]
  let s := mix s 0 5 10 15 m[8] m[9]
  let s := mix s 1 6 11 12 m[10] m[11]
  let s := mix s 2 7 8 13 m[12] m[13]
  mix s 3 4 9 14 m[14] m[15]

/-- The order of the words of a block from one round to the next. -/
def permute (m : Words) : Words :=
  #v[m[2], m[6], m[3], m[10], m[7], m[0], m[4], m[13], m[1], m[11], m[12], m[5], m[9], m[14], m[15], m[8]]

/-- A number of rounds, the words of the block reordered between them. -/
def rounds : Nat → Words → Words → Words
  | 0, s, _ => s
  | n + 1, s, m => rounds n (round s m) (permute m)

/-- Compresses a block of `len` bytes under a value. -/
def compress (v : Value) (block : Words) (counter : UInt64) (len flags : UInt32) : Value :=
  let s : Words := #v[v[0], v[1], v[2], v[3], v[4], v[5], v[6], v[7], initial[0], initial[1], initial[2], initial[3],
    counter.toUInt32, (counter >>> 32).toUInt32, len, flags]
  let s := rounds 7 s block
  #v[s[0] ^^^ s[8], s[1] ^^^ s[9], s[2] ^^^ s[10], s[3] ^^^ s[11], s[4] ^^^ s[12], s[5] ^^^ s[13], s[6] ^^^ s[14],
    s[7] ^^^ s[15]]

/-- A word of four bytes, the least significant first; bytes that are missing are zero. -/
def wordOf (bs : List UInt8) : UInt32 :=
  bs.foldr (fun b w => (w <<< 8) ||| b.toUInt32) 0

/-- The words of up to `n` groups of four bytes. -/
def wordsOf : Nat → List UInt8 → List UInt32
  | 0, _ => []
  | n + 1, bs => wordOf (bs.take 4) :: wordsOf n (bs.drop 4)

/-- The words of a block; a short block is filled with zeros. -/
def blockOf (bs : List UInt8) : Words :=
  let ws := wordsOf 16 bs
  Vector.ofFn fun i => ws.getD i.val 0

/-- Cuts bytes into pieces of `size` bytes; the last piece may be shorter. There is always one piece. -/
def pieces (size : Nat) : Nat → List UInt8 → List (List UInt8)
  | 0, bs => [bs]
  | fuel + 1, bs => if bs.length ≤ size then [bs] else bs.take size :: pieces size fuel (bs.drop size)

/-- The value of the blocks of a chunk; the last one is marked as its end, and with the flags `final`. -/
def chunkBlocks (counter : UInt64) (final : UInt32) : Value → UInt32 → List (List UInt8) → Value
  | v, _, [] => v
  | v, start, [b] => compress v (blockOf b) counter b.length.toUInt32 (start ||| chunkEnd ||| final)
  | v, start, b :: bs => chunkBlocks counter final (compress v (blockOf b) counter b.length.toUInt32 start) 0 bs

/-- The value of a chunk. -/
def chunkValue (counter : UInt64) (final : UInt32) (bs : List UInt8) : Value :=
  chunkBlocks counter final initial chunkStart (pieces blockSize (chunkSize / blockSize) bs)

/-- The value of a node from its two parts. -/
def parentValue (left right : Value) (flags : UInt32) : Value :=
  compress initial (left ++ right) 0 64 (parent ||| flags)

/-- Joins neighbours; a value without neighbour is kept. -/
def joinPairs : List Value → List Value
  | l :: r :: vs => parentValue l r 0 :: joinPairs vs
  | vs => vs

/-- Joins values level by level until two are left, which make the root. -/
def joinAll : Nat → List Value → Value
  | _, [l, r] => parentValue l r root
  | fuel + 1, vs => joinAll fuel (joinPairs vs)
  | 0, vs => vs.headD initial

/-- The bytes of a word, the least significant first. -/
def bytesOf (w : UInt32) : List UInt8 := [w.toUInt8, (w >>> 8).toUInt8, (w >>> 16).toUInt8, (w >>> 24).toUInt8]

/-- The root value of a byte string. -/
def rootValue (bs : List UInt8) : Value :=
  match pieces chunkSize (bs.length / chunkSize) bs with
  | [only] => chunkValue 0 root only
  | chunks => joinAll chunks.length (chunks.mapIdx fun i c => chunkValue i.toUInt64 0 c)

/-- The digest of a byte string. -/
def digest (bs : List UInt8) : List UInt8 := (rootValue bs).toList.flatMap bytesOf

end DispatchTree.Blake3
