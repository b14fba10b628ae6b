import BlockStore.Bytes

/-!
# Blocks

A block is the unit of every transfer between a store and its device, and the size of every value.

## Main definitions

* `blockSize`: bytes in a block.
* `ceilDiv`, `paddedSize`: whole blocks, or other units, that cover an amount.
* `Block`: exactly `blockSize` bytes. `Block.ofBytes` pads a shorter value with zeros,
  `Block.patch` replaces a range, `Block.repeated` lays copies end to end.
-/

namespace BlockStore

/-- Size in bytes of every block, and of every value. -/
def blockSize : Nat := 4096

/-- The quotient of `a` by `b`, rounded up. -/
def ceilDiv (a b : Nat) : Nat := (a + b - 1) / b

theorem le_ceilDiv_mul (n : Nat) : n ≤ ceilDiv n blockSize * blockSize := by
  simp only [ceilDiv, blockSize]
  omega

/-- `bytes` rounded up to whole blocks. -/
def paddedSize (bytes : Nat) : Nat := ceilDiv bytes blockSize * blockSize

/-- Exactly `blockSize` bytes. -/
structure Block where
  /-- The contents. -/
  bytes : ByteArray
  size_eq : bytes.size = blockSize

namespace Block

@[ext] theorem ext {a b : Block} (h : a.bytes = b.bytes) : a = b := by
  cases a; cases b; simp_all

instance : DecidableEq Block := fun a b =>
  @decidable_of_iff _ (a.bytes = b.bytes) ⟨ext, congrArg bytes⟩ (ByteArray.instDecidableEq _ _)

/-- The block of zeros. -/
def zero : Block := ⟨zeros blockSize, size_zeros _⟩

/-- The block that starts with `data`: the rest is zero, and bytes past a whole block are
dropped. -/
def ofBytes (data : ByteArray) : Block := ⟨fit data blockSize, size_fit _ _⟩

/-- The block with the bytes from position `i` on replaced by `src`; a range that leaves the block
changes nothing. -/
def patch (b : Block) (i : Nat) (src : ByteArray) : Block :=
  if h : i + src.size ≤ blockSize then
    ⟨overwrite b.bytes i src, by rw [size_overwrite (by rw [b.size_eq]; exact h), b.size_eq]⟩
  else b

/-- `n` copies of `b`, end to end. -/
def repeated (b : Block) (n : Nat) : ByteArray :=
  (List.replicate n b).foldl (fun acc x => acc ++ x.bytes) .empty

end Block

end BlockStore
