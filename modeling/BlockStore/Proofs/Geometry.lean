import BlockStore.Allocator
import BlockStore.Superblock
import Mathlib.Algebra.Group.Nat.Defs

/-!
# Where the regions of a valid volume lie

A superblock that passes its check puts the bitmap, the key table, the dedup table and the data blocks
one after the other, behind block 0 and inside the device. `Superblock.Fits` says what the check
guarantees in byte offsets; the lemmas below it say the same of block numbers, which is the form that
the effects of block writes are computed with.

## Main definitions

* `Superblock.Fits`: what a superblock that passes its check promises.

## Main results

* `Superblock.validate_eq_ok_iff`: the check passes exactly then.
* `Superblock.Fits.one_le_bitmapStart`, `bitmap_le_keysStart`, `keys_le_dedupStart`,
  `dedup_le_dataStart`, `data_le`: the regions in order.
-/

namespace BlockStore

namespace Superblock

/-- What a superblock that passes its check promises about a device of `length` bytes. -/
structure Fits (sb : Superblock) (length : Nat) : Prop where
  magic : sb.magic = magicNumber
  size : sb.size.toNat = encodedSize
  slots_pos : 0 < sb.slots
  slots_le : sb.slots ≤ maxBlocks
  bitmap_aligned : sb.bitmapOffset.toNat % blockSize = 0
  keys_aligned : sb.keysOffset.toNat % blockSize = 0
  data_aligned : sb.dataOffset.toNat % blockSize = 0
  keys_lt_data : sb.keysOffset.toNat < sb.dataOffset.toNat
  bitmap_lt_keys : sb.bitmapOffset.toNat < sb.keysOffset.toNat
  size_lt_bitmap : encodedSize < sb.bitmapOffset.toNat
  bitmap_room : ceilDiv sb.slots 8 ≤ sb.keysOffset.toNat - sb.bitmapOffset.toNat
  keys_room : sb.keysOffset.toNat + sb.slots * recordSize ≤ sb.dataOffset.toNat
  dedup_room : sb.isDedup → sb.dedupBlocks ≠ 0
  data_room : sb.dataOffset.toNat + sb.slots * blockSize ≤ sb.volumeSize.toNat
  volume_le : sb.volumeSize.toNat ≤ length

theorem checkAligned_eq_ok_iff {offset : Offset} {value : UInt64} :
    checkAligned offset value = .ok () ↔ value.toNat % blockSize = 0 := by
  rw [checkAligned]
  split <;> simp_all

private theorem guard_bind_eq_ok_iff {p : Prop} [Decidable p] {e : SuperblockFault}
    {skipped rest : Except SuperblockFault Unit} :
    (if p then throw e >>= fun _ : PUnit => skipped else rest) = .ok () ↔ ¬ p ∧ rest = .ok () := by
  by_cases hp : p <;> simp [hp, throw, throwThe, MonadExceptOf.throw, bind, Except.bind]

private theorem check_bind_eq_ok_iff {check rest : Except SuperblockFault Unit} :
    (check >>= fun _ => rest) = .ok () ↔ check = .ok () ∧ rest = .ok () := by
  cases check <;> simp [bind, Except.bind]

private theorem guard_eq_ok_iff {p : Prop} [Decidable p] {e : SuperblockFault} :
    ((if p then throw e else pure PUnit.unit) : Except SuperblockFault Unit) = .ok () ↔ ¬ p := by
  by_cases hp : p <;> simp [hp, throw, throwThe, MonadExceptOf.throw, pure, Except.pure]

/-- The check passes exactly when the superblock describes a volume that fits on the device. The two
sums that might leave 64 bits are bounded by fields that do not. -/
theorem validate_eq_ok_iff {sb : Superblock} {length : Nat} :
    sb.validate length = .ok () ↔ sb.Fits length := by
  have hdata := sb.dataOffset.toNat_lt
  have hvolume := sb.volumeSize.toNat_lt
  rw [validate]
  simp only [guard_bind_eq_ok_iff, check_bind_eq_ok_iff, guard_eq_ok_iff, checkAligned_eq_ok_iff]
  constructor
  · rintro ⟨hmagic, hsize, hslots, hb, hk, hd, horder, hbitmap, -, hkeys, hdedup, -, hend, hlen⟩
    refine ⟨by simpa using hmagic, by simpa using hsize, by omega, by omega, hb, hk, hd, by omega,
      by omega, ?_, by omega, by omega, fun h h0 => hdedup ⟨h, h0⟩, by omega, by omega⟩
    simp only [ne_eq, Decidable.not_not] at hsize
    omega
  · intro h
    have hs := h.size
    have h1 := h.slots_pos
    have h2 := h.slots_le
    have h3 := h.keys_lt_data
    have h4 := h.bitmap_lt_keys
    have h5 := h.size_lt_bitmap
    have h6 := h.bitmap_room
    have h7 := h.keys_room
    have h8 := h.data_room
    have h9 := h.volume_le
    refine ⟨by simpa using h.magic, by simpa using hs, by omega, h.bitmap_aligned, h.keys_aligned,
      h.data_aligned, by omega, by omega, ?_, by omega, fun hd => h.dedup_room hd.1 hd.2, ?_,
      by omega, by omega⟩
    all_goals
      rw [Nat.one_shiftLeft]
      omega

variable {sb : Superblock} {length : Nat}

/-- Blocks of the bitmap. -/
def bitmapBlocks (sb : Superblock) : Nat := Allocator.bitmapSize sb.slots / blockSize

theorem bitmapSize_eq (sb : Superblock) :
    Allocator.bitmapSize sb.slots = sb.bitmapBlocks * blockSize := by
  simp only [bitmapBlocks, Allocator.bitmapSize, paddedSize, blockSize]
  omega

/-- The bitmap has a byte for every slot. -/
theorem div_lt_bitmapSize {s : Nat} (hs : s < sb.slots) : s / 8 < Allocator.bitmapSize sb.slots := by
  simp only [Allocator.bitmapSize, paddedSize, ceilDiv, blockSize]
  omega

/-- Entries of the dedup table. -/
def dedupCapacity (sb : Superblock) : Nat := sb.dedupBlocks * recordsPerBlock

namespace Fits

theorem one_le_bitmapStart (h : sb.Fits length) : 1 ≤ sb.bitmapStart := by
  have h1 := h.size_lt_bitmap
  have h2 := h.bitmap_aligned
  simp only [bitmapStart, blockSize, encodedSize] at *
  omega

/-- The padded bitmap ends where the key table starts, or before. -/
theorem bitmap_le_keysStart (h : sb.Fits length) :
    sb.bitmapStart + sb.bitmapBlocks ≤ sb.keysStart := by
  have h1 := h.bitmap_room
  have h2 := h.bitmap_aligned
  have h3 := h.keys_aligned
  have h4 := h.bitmap_lt_keys
  simp only [bitmapStart, keysStart, bitmapBlocks, Allocator.bitmapSize, paddedSize, ceilDiv,
    blockSize] at *
  omega

/-- The key table has a block for every entry before the dedup table starts. -/
theorem keys_le_dedupStart (h : sb.Fits length) {s : Nat} (hs : s < sb.slots) :
    sb.keysStart + s / recordsPerBlock < sb.dedupStart := by
  have h1 := h.keys_aligned
  simp only [keysStart, dedupStart, paddedSize, ceilDiv, recordsPerBlock, recordSize, blockSize,
    Nat.reduceDiv] at *
  omega

theorem dedupStart_le_dataStart (h : sb.Fits length) : sb.dedupStart ≤ sb.dataStart := by
  have h1 := h.keys_room
  have h2 := h.keys_aligned
  have h3 := h.data_aligned
  simp only [dedupStart, dataStart, paddedSize, ceilDiv, recordSize, blockSize] at *
  omega

theorem dedup_le_dataStart (h : sb.Fits length) :
    sb.dedupStart + sb.dedupBlocks ≤ sb.dataStart := by
  have := h.dedupStart_le_dataStart
  rw [dedupBlocks]
  split <;> omega

theorem dedup_lt_dataStart (h : sb.Fits length) {i : Nat} (hi : i < sb.dedupCapacity) :
    sb.dedupStart + i / recordsPerBlock < sb.dataStart := by
  have h1 := h.dedup_le_dataStart
  have h2 := (Nat.div_lt_iff_lt_mul (by decide)).2 hi
  omega

theorem one_le_dataStart (h : sb.Fits length) : 1 ≤ sb.dataStart := by
  have h1 := h.one_le_bitmapStart
  have h2 := h.bitmap_le_keysStart
  have h3 := h.keys_le_dedupStart h.slots_pos
  have h4 := h.dedupStart_le_dataStart
  rw [Nat.zero_div] at h3
  omega

/-- The data blocks end inside the device, at a 64-bit position. -/
theorem data_le (h : sb.Fits length) :
    (sb.dataStart + sb.slots) * blockSize ≤ length ∧
      (sb.dataStart + sb.slots) * blockSize < 2 ^ 64 := by
  have h1 := h.data_room
  have h2 := h.volume_le
  have h3 := sb.volumeSize.toNat_lt
  have h4 := h.data_aligned
  simp only [dataStart, blockSize] at *
  omega

/-- No data block is block 0, so a zero pointer leads nowhere. -/
theorem dataBlock_ne_zero (h : sb.Fits length) (s : Nat) : sb.dataBlock s ≠ 0 := by
  have := h.one_le_dataStart
  rw [dataBlock]
  omega

/-- The number of a data block fits a pointer. -/
theorem dataBlock_lt_word (h : sb.Fits length) {s : Nat} (hs : s < sb.slots) : sb.dataBlock s < 2 ^ 64 := by
  have := h.data_le.2
  simp only [dataBlock, blockSize] at *
  omega

end Fits

theorem dataBlock_inj {s t : Nat} (h : sb.dataBlock s = sb.dataBlock t) : s = t :=
  Nat.add_left_cancel h

theorem slotOfBlock_dataBlock {s : Nat} (hs : s < sb.slots) :
    sb.slotOfBlock (sb.dataBlock s) = some s := by
  rw [slotOfBlock, dataBlock, if_pos (by omega), Nat.add_sub_cancel_left]

theorem slotOfBlock_eq_some_iff {b s : Nat} :
    sb.slotOfBlock b = some s ↔ s < sb.slots ∧ b = sb.dataBlock s := by
  rw [slotOfBlock, dataBlock]
  split
  · rw [Option.some.injEq]
    omega
  · simp only [reduceCtorEq, false_iff]
    omega

end Superblock

end BlockStore
