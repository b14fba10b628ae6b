import BlockStore.DedupTable
import BlockStore.KeyTable
import BlockStore.Superblock

/-!
# Layouts

The geometry of a volume with a given number of slots, and the writing of an empty one.

## Main definitions

* `Layout`: the number of slots, in range, and whether the volume deduplicates.
* `Layout.forBlocks`, `Layout.forDevice`: the layout with a number of slots, and the largest one
  that fits on a device.
* `Layout.superblock`: its superblock.
* `Layout.format`: writes an empty volume. Block 0 is zeroed first and written last, so a device on
  which formatting stopped halfway is not taken for a volume.
-/

namespace BlockStore

/-- The geometry of a volume. -/
structure Layout where
  /-- The number of slots. -/
  slots : Nat
  /-- The volume deduplicates. -/
  dedup : Bool
  slots_pos : 0 < slots
  slots_le : slots ≤ Superblock.maxBlocks

namespace Layout

/-- The layout with a number of slots. -/
def forBlocks (slots : Nat) (dedup : Bool) : Except StoreError Layout :=
  if h : 0 < slots ∧ slots ≤ Superblock.maxBlocks then .ok ⟨slots, dedup, h.1, h.2⟩
  else .error .noSpace

/-- Blocks of the dedup table of a volume with `n` slots: one entry for each slot. -/
def dedupBlocksFor (n : Nat) (dedup : Bool) : Nat :=
  if dedup then ceilDiv n recordsPerBlock else 0

/-- Bytes that a volume with `n` slots takes. -/
def totalSize (n : Nat) (dedup : Bool) : Nat :=
  blockSize + paddedSize (ceilDiv n 8) + paddedSize (n * recordSize) +
    dedupBlocksFor n dedup * blockSize + n * blockSize

/-- The greatest number of slots from `low` to `high` that fits in `length` bytes, when `low` does;
the size grows with the number, so half of the range is left each time. -/
def bisect (length : Nat) (dedup : Bool) (low high : Nat) : Nat :=
  if low < high then
    let middle := low + (high - low + 1) / 2
    if totalSize middle dedup ≤ length then bisect length dedup middle high
    else bisect length dedup low (middle - 1)
  else low
termination_by high - low

/-- The largest layout whose volume fits in `length` bytes. -/
def forDevice (length : Nat) (dedup : Bool) : Except StoreError Layout :=
  if totalSize 1 dedup ≤ length then
    forBlocks (bisect length dedup 1 (min (length / blockSize) Superblock.maxBlocks)) dedup
  else .error .noSpace

/-- Blocks of the dedup table. -/
def dedupBlocks (l : Layout) : Nat := dedupBlocksFor l.slots l.dedup

/-- Bytes that the volume takes. -/
def size (l : Layout) : Nat := totalSize l.slots l.dedup

/-- The superblock of the volume. -/
def superblock (l : Layout) : Superblock :=
  let bitmap := blockSize
  let keys := bitmap + paddedSize (ceilDiv l.slots 8)
  let data := keys + paddedSize (l.slots * recordSize) + l.dedupBlocks * blockSize
  { magic := Superblock.magicNumber
    size := UInt16.ofNat Superblock.encodedSize
    bitmapOffset := UInt64.ofNat bitmap
    keysOffset := UInt64.ofNat keys
    dataOffset := UInt64.ofNat data
    blockCount := UInt32.ofNat l.slots
    flags := if l.dedup then Superblock.dedupFlag else 0
    volumeSize := UInt64.ofNat l.size }

/-- Blocks written by one transfer while formatting. -/
def formatBatch : Nat := 256

/-- Writes `b` over `count` blocks, from block `start` on: whole batches, then what is left. -/
def fillRegion (start count : Nat) (b : Block) : DeviceM Unit := do
  let batches := count / formatBatch
  let rest := count % formatBatch
  if batches ≠ 0 then
    let batch := b.repeated formatBatch
    (List.range batches).forM fun k => Device.write (start + k * formatBatch) batch
  if rest ≠ 0 then
    Device.write (start + batches * formatBatch) (b.repeated rest)

/-- Writes an empty volume: every region is written, whatever it held. -/
def format (l : Layout) : DeviceM Superblock := do
  let sb := l.superblock
  if (← get).size < sb.volumeSize.toNat then
    throw .noSpace
  Device.writeBlock 0 .zero
  fillRegion sb.bitmapStart (sb.keysStart - sb.bitmapStart) .zero
  fillRegion sb.keysStart (sb.dedupStart - sb.keysStart) (.ofRecord KeyEntry.free.toRecord)
  fillRegion sb.dedupStart sb.dedupBlocks (.ofRecord DedupEntry.free.toRecord)
  fillRegion sb.dataStart (sb.volumeSize.toNat / blockSize - sb.dataStart) .zero
  Device.writeBlock 0 (.ofBytes sb.encode)
  return sb

end Layout

end BlockStore
