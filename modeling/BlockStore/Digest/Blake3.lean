import BlockStore.Bytes

/-!
# The BLAKE3 hash

The default (unkeyed) BLAKE3 digest. The input is cut into chunks of 1024 bytes; a chunk is a chain
of compressions of 64-byte blocks, and the chunks are the leaves of a binary tree whose left subtree
is as large a power of two as leaves something to its right. The last compression of the whole is
flagged as the root.

## Main definitions

* `Blake3.compress`: the compression function, cut to its first eight words.
* `Blake3.Node`: a compression that has not been run yet, because the root one gets a flag of its
  own.
* `Blake3.chunk`, `Blake3.subtree`: the node of one chunk, and of a run of chunks.
* `blake3`: the 32 bytes of the digest.
-/

namespace BlockStore

namespace Blake3

/-- The first eight words of the state's constants, and the chaining value of a first block. -/
def iv : Vector UInt32 8 :=
  #v[0x6A09E667, 0xBB67AE85, 0x3C6EF372, 0xA54FF53A, 0x510E527F, 0x9B05688C, 0x1F83D9AB, 0x5BE0CD19]

/-- Flag of the first block of a chunk. -/
def chunkStart : UInt32 := 1

/-- Flag of the last block of a chunk. -/
def chunkEnd : UInt32 := 2

/-- Flag of an inner node of the tree. -/
def parent : UInt32 := 4

/-- Flag of the root. -/
def root : UInt32 := 8

/-- Bytes in a block. -/
def blockBytes : Nat := 64

/-- Bytes in a chunk. -/
def chunkBytes : Nat := 1024

/-- Rotation to the right. -/
def rotateRight (x : UInt32) (n : UInt32) : UInt32 := (x >>> n) ||| (x <<< (32 - n))

/-- Mixes two message words into four words of the state. -/
def mix (s : Vector UInt32 16) (a b c d : Fin 16) (x y : UInt32) : Vector UInt32 16 :=
  let a₁ := s.get a + s.get b + x
  let d₁ := rotateRight (s.get d ^^^ a₁) 16
  let c₁ := s.get c + d₁
  let b₁ := rotateRight (s.get b ^^^ c₁) 12
  let a₂ := a₁ + b₁ + y
  let d₂ := rotateRight (d₁ ^^^ a₂) 8
  let c₂ := c₁ + d₂
  let b₂ := rotateRight (b₁ ^^^ c₂) 7
  (((s.set a a₂).set b b₂).set c c₂).set d d₂

/-- One round: the columns of the state, then its diagonals. -/
def round (s m : Vector UInt32 16) : Vector UInt32 16 :=
  let s := mix s 0 4 8 12 m[0] m[1]
  let s := mix s 1 5 9 13 m[2] m[3]
  let s := mix s 2 6 10 14 m[4] m[5]
  let s := mix s 3 7 11 15 m[6] m[7]
  let s := mix s 0 5 10 15 m[8] m[9]
  let s := mix s 1 6 11 12 m[10] m[11]
  let s := mix s 2 7 8 13 m[12] m[13]
  mix s 3 4 9 14 m[14] m[15]

/-- The order of the message words in the round after this one. -/
def permute (m : Vector UInt32 16) : Vector UInt32 16 :=
  #v[m[2], m[6], m[3], m[10], m[7], m[0], m[4], m[13],
    m[1], m[11], m[12], m[5], m[9], m[14], m[15], m[8]]

/-- `n` rounds, the message permuted after each. -/
def rounds : Nat → Vector UInt32 16 → Vector UInt32 16 → Vector UInt32 16
  | 0, s, _ => s
  | n + 1, s, m => rounds n (round s m) (permute m)

/-- The first eight words that a block compresses to under a chaining value. -/
def compress (chain : Vector UInt32 8) (block : Vector UInt32 16) (counter : UInt64)
    (size flags : UInt32) : Vector UInt32 8 :=
  let s := rounds 7
    (#v[chain[0], chain[1], chain[2], chain[3], chain[4], chain[5], chain[6], chain[7],
      iv[0], iv[1], iv[2], iv[3], counter.toUInt32, (counter >>> 32).toUInt32, size, flags]) block
  #v[s[0] ^^^ s[8], s[1] ^^^ s[9], s[2] ^^^ s[10], s[3] ^^^ s[11],
    s[4] ^^^ s[12], s[5] ^^^ s[13], s[6] ^^^ s[14], s[7] ^^^ s[15]]

/-- A compression still to be run. -/
structure Node where
  /-- Chaining value. -/
  chain : Vector UInt32 8
  /-- Message words. -/
  block : Vector UInt32 16
  /-- Number of the chunk, zero in an inner node. -/
  counter : UInt64
  /-- Bytes of the message. -/
  size : UInt32
  /-- Flags other than that of the root. -/
  flags : UInt32

/-- What the node passes to its parent. -/
def Node.output (n : Node) : Vector UInt32 8 := compress n.chain n.block n.counter n.size n.flags

/-- The digest of a tree with this root. -/
def Node.digest (n : Node) : List UInt8 :=
  (compress n.chain n.block n.counter n.size (n.flags ||| root)).toList.flatMap
    fun w => leBytes 4 w.toNat

/-- The 32-bit word at position `i`, low byte first. -/
def wordAt (b : ByteArray) (i : Nat) : UInt32 :=
  (byteAt b i).toUInt32 ||| ((byteAt b (i + 1)).toUInt32 <<< 8) |||
    ((byteAt b (i + 2)).toUInt32 <<< 16) ||| ((byteAt b (i + 3)).toUInt32 <<< 24)

/-- The message words of the `size ≤ 64` bytes from position `i` on, zero-padded. -/
def blockAt (b : ByteArray) (i size : Nat) : Vector UInt32 16 :=
  if size = blockBytes then Vector.ofFn fun k => wordAt b (i + 4 * k.val)
  else
    let short := b.extract i (i + size)
    Vector.ofFn fun k => wordAt short (4 * k.val)

/-- The node of the rest of a chunk, `size` bytes from position `i` on. -/
def chunkFrom (b : ByteArray) (counter : UInt64) (chain : Vector UInt32 8) (start : UInt32)
    (i size : Nat) : Node :=
  if size ≤ blockBytes then
    { chain, block := blockAt b i size, counter, size := UInt32.ofNat size,
      flags := start ||| chunkEnd }
  else
    chunkFrom b counter (compress chain (blockAt b i blockBytes) counter 64 start) 0
      (i + blockBytes) (size - blockBytes)
termination_by size
decreasing_by simp only [blockBytes] at *; omega

/-- The node of the chunk of `size` bytes at position `i`. -/
def chunk (b : ByteArray) (counter : UInt64) (i size : Nat) : Node :=
  chunkFrom b counter iv chunkStart i size

/-- The inner node over two subtrees. -/
def join (left right : Node) : Node :=
  { chain := iv, block := left.output ++ right.output, counter := 0, size := 64, flags := parent }

/-- The greatest power of two below `n`, for `n` of at least two. -/
def leftCount (n : Nat) : Nat := 1 <<< (n - 1).log2

theorem leftCount_pos (n : Nat) : 0 < leftCount n := by
  rw [leftCount, Nat.one_shiftLeft]
  exact Nat.two_pow_pos _

theorem leftCount_lt {n : Nat} (h : 2 ≤ n) : leftCount n < n := by
  have := Nat.log2_self_le (n := n - 1) (by omega)
  rw [leftCount, Nat.one_shiftLeft]
  omega

/-- The node over `count` chunks from number `first` on: the bytes of `b` from there to the end of
the last of them, or to the end of `b`. -/
def subtree (b : ByteArray) (first count : Nat) : Node :=
  if 2 ≤ count then
    let left := leftCount count
    join (subtree b first left) (subtree b (first + left) (count - left))
  else
    chunk b (UInt64.ofNat first) (first * chunkBytes) (min chunkBytes (b.size - first * chunkBytes))
termination_by count
decreasing_by
  · exact leftCount_lt ‹_›
  · exact Nat.sub_lt (by omega) (leftCount_pos count)

end Blake3

/-- The 32 bytes of the BLAKE3 digest of `b`. -/
def blake3 (b : ByteArray) : List UInt8 :=
  (Blake3.subtree b 0 ((b.size + Blake3.chunkBytes - 1) / Blake3.chunkBytes)).digest

end BlockStore
