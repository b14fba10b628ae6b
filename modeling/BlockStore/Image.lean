import BlockStore.Block
import Std.Data.ExtTreeMap

/-!
# Images

The contents of a device or a file, held block by block. Only blocks that are not zero are stored,
so a file of any size costs no more than what was written to it, and images of one size that agree
on every block are equal.

Every number has a block, which is zero unless it is stored. The size is kept apart from the blocks
and decides nothing but where the contents end; who reads or writes makes sure that the range is
inside.

## Main definitions

* `Image`: a size and the blocks that are not zero.
* `Image.block`, `Image.byte`: the block with a number, the byte at a position.
* `Image.setBlock`: the image with one block set.
* `Image.read`, `Image.write`: runs of whole blocks.
* `Image.patch`, `Image.resize`: bytes from any position on, and another size.
* `Image.ofBytes`, `Image.toBytes`: the contents as one byte string.

## Main results

* `Image.ext`: images of one size with the same blocks are equal.
* `Image.block_setBlock`, `Image.block_write`: what a write does to each block.
* `Image.byte_write`, `Image.byte_patch`, `Image.byte_resize`: what is done to each byte.
* `Image.byteAt_read`: reading gives the bytes of the image.
* `Image.toBytes_ofBytes`: no contents are lost.
-/

namespace BlockStore

/-- The contents of a device or a file. -/
structure Image where
  /-- Size in bytes. -/
  size : Nat
  /-- The blocks that are not zero, by number. -/
  blocks : Std.ExtTreeMap Nat Block := ∅
  blocks_ne_zero : ∀ n : Nat, blocks[n]? ≠ some .zero := by simp

namespace Image

/-- The image of `size` zero bytes. -/
def blank (size : Nat) : Image := { size }

/-- The block with a number. -/
def block (im : Image) (n : Nat) : Block := im.blocks[n]?.getD .zero

@[simp] theorem block_blank (size n : Nat) : (blank size).block n = .zero := by
  simp [block, blank]

@[ext] theorem ext {a b : Image} (hsize : a.size = b.size) (h : ∀ n, a.block n = b.block n) :
    a = b := by
  obtain ⟨_, s, hs⟩ := a
  obtain ⟨_, t, ht⟩ := b
  obtain rfl : s = t := by
    refine Std.ExtTreeMap.ext_getElem? ?_
    intro n
    have h := h n
    have hs := hs n
    have ht := ht n
    simp only [block] at h
    cases hn : s[n]? <;> cases hm : t[n]? <;> simp_all
  cases hsize
  rfl

/-- The byte at a position. -/
def byte (im : Image) (i : Nat) : UInt8 := byteAt (im.block (i / blockSize)).bytes (i % blockSize)

theorem byte_mul_add (im : Image) (n : Nat) {i : Nat} (h : i < blockSize) :
    im.byte (n * blockSize + i) = byteAt (im.block n).bytes i := by
  rw [byte, Nat.add_comm, Nat.add_mul_div_right _ _ (by decide), Nat.div_eq_of_lt h, Nat.zero_add,
    Nat.add_mul_mod_self_right, Nat.mod_eq_of_lt h]

/-! ### Whole blocks -/

/-- The image with one block set. -/
def setBlock (im : Image) (n : Nat) (b : Block) : Image where
  size := im.size
  blocks := if b = .zero then im.blocks.erase n else im.blocks.insert n b
  blocks_ne_zero m := by
    have := im.blocks_ne_zero m
    split
    · rw [Std.ExtTreeMap.getElem?_erase]
      split <;> simp_all
    · rw [Std.ExtTreeMap.getElem?_insert]
      split <;> simp_all

@[simp] theorem size_setBlock (im : Image) (n : Nat) (b : Block) :
    (im.setBlock n b).size = im.size := rfl

theorem block_setBlock (im : Image) (n : Nat) (b : Block) (m : Nat) :
    (im.setBlock n b).block m = if n = m then b else im.block m := by
  by_cases h0 : b = .zero <;> by_cases h : n = m <;>
    simp [block, setBlock, h0, h, Std.ExtTreeMap.getElem?_erase, Std.ExtTreeMap.getElem?_insert]

/-- The image with `count` blocks from `n` on set. -/
def setBlocks (im : Image) (n count : Nat) (contents : Nat → Block) : Image :=
  (List.range count).foldl (fun im k => im.setBlock (n + k) (contents k)) im

theorem setBlocks_succ (im : Image) (n count : Nat) (contents : Nat → Block) :
    im.setBlocks n (count + 1) contents =
      (im.setBlocks n count contents).setBlock (n + count) (contents count) := by
  simp [setBlocks, List.range_succ]

@[simp] theorem size_setBlocks (im : Image) (n count : Nat) (contents : Nat → Block) :
    (im.setBlocks n count contents).size = im.size := by
  induction count with
  | zero => rfl
  | succ count ih => rw [setBlocks_succ, size_setBlock, ih]

theorem block_setBlocks (im : Image) (n count : Nat) (contents : Nat → Block) (m : Nat) :
    (im.setBlocks n count contents).block m =
      if n ≤ m ∧ m < n + count then contents (m - n) else im.block m := by
  induction count with
  | zero => rw [if_neg (by omega)]; rfl
  | succ count ih =>
    rw [setBlocks_succ, block_setBlock, ih]
    by_cases h : n + count = m
    · rw [if_pos h, if_pos (by omega), ← h, Nat.add_sub_cancel_left]
    · rw [if_neg h]
      by_cases hm : n ≤ m ∧ m < n + count
      · rw [if_pos hm, if_pos (by omega)]
      · rw [if_neg hm, if_neg (by omega)]

/-- Block `k` of a byte string; the last one may have to be filled up with zeros. -/
def blockOf (data : ByteArray) (k : Nat) : Block :=
  .ofBytes (data.extract (k * blockSize) ((k + 1) * blockSize))

/-- The bytes of `count` blocks from `n` on. -/
def read (im : Image) (n count : Nat) : ByteArray :=
  (List.range count).foldl (fun acc k => acc ++ (im.block (n + k)).bytes) .empty

@[simp] theorem read_zero (im : Image) (n : Nat) : im.read n 0 = .empty := rfl

theorem read_succ (im : Image) (n count : Nat) :
    im.read n (count + 1) = im.read n count ++ (im.block (n + count)).bytes := by
  simp [read, List.range_succ]

@[simp] theorem size_read (im : Image) (n count : Nat) :
    (im.read n count).size = count * blockSize := by
  induction count with
  | zero => simp
  | succ count ih =>
    rw [read_succ, ByteArray.size_append, ih, (im.block _).size_eq, Nat.succ_mul]

theorem byteAt_blockOf (data : ByteArray) (k : Nat) {i : Nat} (h : i < blockSize) :
    byteAt (blockOf data k).bytes i = byteAt data (k * blockSize + i) := by
  rw [blockOf, Block.ofBytes, byteAt_fit, if_pos h, byteAt_extract, Nat.succ_mul, if_pos (by omega)]

theorem byte_setBlocks (im : Image) (n count : Nat) (data : ByteArray) (i : Nat) :
    (im.setBlocks n count (blockOf data)).byte i =
      if n * blockSize ≤ i ∧ i < (n + count) * blockSize then byteAt data (i - n * blockSize)
      else im.byte i := by
  have hlt : i % blockSize < blockSize := Nat.mod_lt _ (by decide)
  have hn : n * blockSize ≤ i ↔ n ≤ i / blockSize := (Nat.le_div_iff_mul_le (by decide)).symm
  have hc : i < (n + count) * blockSize ↔ i / blockSize < n + count :=
    (Nat.div_lt_iff_lt_mul (by decide)).symm
  rw [byte, block_setBlocks]
  by_cases h : n ≤ i / blockSize ∧ i / blockSize < n + count
  · rw [if_pos h, if_pos (by rwa [hn, hc]), byteAt_blockOf _ _ hlt]
    congr 1
    have := Nat.div_add_mod i blockSize
    rw [Nat.sub_mul]
    have := Nat.mul_le_mul_right blockSize h.1
    rw [Nat.mul_comm blockSize] at *
    omega
  · rw [if_neg h, if_neg (by rwa [hn, hc]), byte]

theorem blockOf_bytes (b : Block) : blockOf b.bytes 0 = b := by
  have hb : b.bytes.extract 0 blockSize = b.bytes := by
    rw [← b.size_eq]
    exact ByteArray.extract_zero_size
  apply Block.ext
  simp [blockOf, Block.ofBytes, hb, fit, b.size_eq]

theorem byteAt_read (im : Image) (n count i : Nat) :
    byteAt (im.read n count) i =
      if i < count * blockSize then im.byte (n * blockSize + i) else 0 := by
  induction count with
  | zero => rw [if_neg (by omega)]; rfl
  | succ count ih =>
    rw [read_succ, byteAt_append, size_read, ih, Nat.succ_mul]
    by_cases h : i < count * blockSize
    · rw [if_pos h, if_pos h, if_pos (by omega)]
    · rw [if_neg h]
      by_cases hi : i < count * blockSize + blockSize
      · rw [if_pos hi, ← byte_mul_add _ _ (by omega), Nat.add_mul, Nat.add_assoc,
          Nat.add_sub_cancel' (by omega)]
      · have := (im.block (n + count)).size_eq
        rw [if_neg hi, byteAt_of_le (by omega)]

/-- The image with the blocks from `n` on replaced by whole blocks of data. What ends past the end
of the image makes it longer. -/
def write (im : Image) (n : Nat) (data : ByteArray) : Image :=
  let written := im.setBlocks n (data.size / blockSize) (blockOf data)
  if data.size = 0 then written
  else { written with size := max im.size (n * blockSize + data.size) }

theorem block_write (im : Image) (n : Nat) (data : ByteArray) (m : Nat) :
    (im.write n data).block m =
      if n ≤ m ∧ m < n + data.size / blockSize then blockOf data (m - n) else im.block m := by
  rw [← block_setBlocks]
  unfold write
  split <;> rfl

theorem block_write_bytes (im : Image) (n : Nat) (b : Block) (m : Nat) :
    (im.write n b.bytes).block m = if n = m then b else im.block m := by
  rw [block_write, b.size_eq, Nat.div_self (by decide)]
  by_cases h : n = m
  · subst h
    rw [if_pos (by omega), if_pos rfl, Nat.sub_self, blockOf_bytes]
  · rw [if_neg (by omega), if_neg h]

theorem byte_write (im : Image) (n : Nat) {data : ByteArray} (h : blockSize ∣ data.size) (i : Nat) :
    (im.write n data).byte i =
      if n * blockSize ≤ i ∧ i < n * blockSize + data.size then byteAt data (i - n * blockSize)
      else im.byte i := by
  have hw : (im.write n data).byte i =
      (im.setBlocks n (data.size / blockSize) (blockOf data)).byte i := by
    unfold write; split <;> rfl
  rw [hw, byte_setBlocks, Nat.add_mul, Nat.div_mul_cancel h]

/-! ### Bytes -/

/-- The image with the bytes from position `start` on replaced. What ends past the end of the image
makes it longer. -/
def patch (im : Image) (start : Nat) (data : ByteArray) : Image :=
  let first := start / blockSize
  let count := ceilDiv (start + data.size) blockSize - first
  let bytes := overwrite (im.read first count) (start - first * blockSize) data
  { im.setBlocks first count (blockOf bytes) with size := max im.size (start + data.size) }

theorem byte_patch (im : Image) (start : Nat) (data : ByteArray) (i : Nat) :
    (im.patch start data).byte i =
      if start ≤ i ∧ i < start + data.size then byteAt data (i - start) else im.byte i := by
  obtain ⟨first, hfirst⟩ : ∃ n, n = start / blockSize := ⟨_, rfl⟩
  obtain ⟨last, hlast⟩ : ∃ n, n = ceilDiv (start + data.size) blockSize := ⟨_, rfl⟩
  have hle : first ≤ last := by subst hfirst hlast; simp only [ceilDiv, blockSize]; omega
  have hstart : first * blockSize ≤ start := by subst hfirst; exact Nat.div_mul_le_self ..
  have hstop : start + data.size ≤ last * blockSize := by subst hlast; exact le_ceilDiv_mul _
  have hcount : (last - first) * blockSize = last * blockSize - first * blockSize := Nat.sub_mul ..
  have hsize := size_read im first (last - first)
  have hpatch : (im.patch start data).byte i = (im.setBlocks first (last - first) (blockOf
      (overwrite (im.read first (last - first)) (start - first * blockSize) data))).byte i := by
    subst hfirst hlast; rfl
  rw [hpatch, byte_setBlocks, Nat.add_sub_cancel' hle]
  split
  · rw [byteAt_overwrite (by omega), byteAt_read]
    by_cases h : start ≤ i ∧ i < start + data.size
    · rw [if_pos h, if_pos (by omega), Nat.sub_sub, Nat.add_sub_cancel' hstart]
    · rw [if_neg h, if_neg (by omega), if_pos (by omega), Nat.add_sub_cancel' (by omega)]
  · rw [if_neg (by omega)]

/-- The image cut to a size, or filled up to it with zeros. -/
def resize (im : Image) (size : Nat) : Image :=
  let whole := size / blockSize
  let kept : Image := {
    size
    blocks := im.blocks.filter fun n _ => n < whole
    blocks_ne_zero n h := by
      rw [Std.ExtTreeMap.getElem?_filter'] at h
      exact im.blocks_ne_zero n (Option.filter_eq_some_iff.1 h).1 }
  kept.setBlock whole (.ofBytes ((im.block whole).bytes.extract 0 (size - whole * blockSize)))

@[simp] theorem size_resize (im : Image) (size : Nat) : (im.resize size).size = size := rfl

theorem block_resize (im : Image) (size n : Nat) :
    (im.resize size).block n =
      if n < size / blockSize then im.block n
      else if n = size / blockSize then
        .ofBytes ((im.block n).bytes.extract 0 (size - size / blockSize * blockSize))
      else .zero := by
  rw [resize, block_setBlock]
  by_cases h : size / blockSize = n
  · subst h; simp
  · have h' : n ≠ size / blockSize := Ne.symm h
    rw [if_neg h, if_neg h']
    simp only [block, Std.ExtTreeMap.getElem?_filter']
    by_cases hn : n < size / blockSize <;> cases im.blocks[n]? <;> simp [Option.filter, hn]

theorem byte_resize (im : Image) (size i : Nat) :
    (im.resize size).byte i = if i < size then im.byte i else 0 := by
  have hlt : i % blockSize < blockSize := Nat.mod_lt _ (by decide)
  have hi := Nat.div_add_mod' i blockSize
  have hs := Nat.div_add_mod' size blockSize
  rw [byte, block_resize]
  by_cases h : i / blockSize < size / blockSize
  · have := Nat.mul_le_mul_right blockSize h
    rw [if_pos h, if_pos (by rw [Nat.succ_mul] at this; omega), byte]
  · rw [if_neg h]
    by_cases he : i / blockSize = size / blockSize
    · rw [if_pos he, Block.ofBytes, byteAt_fit, if_pos hlt, byteAt_extract, Nat.zero_add, byte]
      by_cases hlt : i < size
      · rw [if_pos hlt, if_pos (by rw [he] at hi; omega)]
      · rw [if_neg hlt, if_neg (by rw [he] at hi; omega)]
    · have := Nat.mul_le_mul_right blockSize (show size / blockSize + 1 ≤ i / blockSize by omega)
      have hm : size % blockSize < blockSize := Nat.mod_lt _ (by decide)
      rw [if_neg he, if_neg (by rw [Nat.succ_mul] at this; omega)]
      exact byteAt_zeros _ _

/-- The image with these contents. -/
def ofBytes (bytes : ByteArray) : Image :=
  (blank bytes.size).setBlocks 0 (ceilDiv bytes.size blockSize) (blockOf bytes)

@[simp] theorem size_ofBytes (b : ByteArray) : (ofBytes b).size = b.size := by
  simp [ofBytes, blank]

theorem byte_ofBytes (b : ByteArray) (i : Nat) : (ofBytes b).byte i = byteAt b i := by
  rw [ofBytes, byte_setBlocks]
  split
  · simp
  · rename_i h
    have := le_ceilDiv_mul b.size
    rw [byteAt_of_le (by simp at h; omega), byte, block_blank]
    exact byteAt_zeros _ _

/-- The contents. -/
def toBytes (im : Image) : ByteArray :=
  (im.read 0 (ceilDiv im.size blockSize)).extract 0 im.size

@[simp] theorem size_toBytes (im : Image) : im.toBytes.size = im.size := by
  have := le_ceilDiv_mul im.size
  rw [toBytes, ByteArray.size_extract, size_read]
  omega

theorem byteAt_toBytes (im : Image) (i : Nat) :
    byteAt im.toBytes i = if i < im.size then im.byte i else 0 := by
  have := le_ceilDiv_mul im.size
  rw [toBytes, byteAt_extract, byteAt_read]
  simp only [Nat.zero_mul, Nat.zero_add]
  split
  · rw [if_pos (by omega)]
  · rfl

@[simp] theorem toBytes_ofBytes (b : ByteArray) : (ofBytes b).toBytes = b := by
  refine ext_byteAt (by rw [size_toBytes, size_ofBytes]) ?_
  intro i
  rw [byteAt_toBytes, byte_ofBytes, size_ofBytes]
  split
  · rfl
  · rw [byteAt_of_le (by omega)]

end Image

end BlockStore
