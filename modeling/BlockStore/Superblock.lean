import BlockStore.Record

/-!
# The superblock

Block 0 of a volume says where its regions lie. In order they are the superblock, the free-space
bitmap, the key table, on a deduplicating volume the dedup table, and the data blocks, of which slot
`s` owns number `s`.

The fields come straight off a device, so `Superblock.validate` checks all of them before anything
is computed from them: after it, no position that the volume uses is out of range.

## Main definitions

* `Superblock`: the fields, as words of their width on the device.
* `Superblock.encode`, `Superblock.decode`: the 48 bytes, and the fields in bytes.
* `Superblock.dedupStart`, `Superblock.dataBlock`, `Superblock.slotOfBlock`: the geometry.
* `Superblock.validate`, `Superblock.read`, `Superblock.probe`: the check, and block 0 of a device.
-/

namespace BlockStore

/-- Where the regions of a volume lie. -/
structure Superblock where
  /-- Marks the block as a superblock. -/
  magic : UInt16
  /-- Size of the superblock in bytes. -/
  size : UInt16
  /-- Byte offset of the free-space bitmap. -/
  bitmapOffset : UInt64
  /-- Byte offset of the key table. -/
  keysOffset : UInt64
  /-- Byte offset of the data blocks. -/
  dataOffset : UInt64
  /-- The number of slots. -/
  blockCount : UInt32
  /-- Bit 0 marks a deduplicating volume. -/
  flags : UInt64
  /-- Bytes that the volume takes on the device. -/
  volumeSize : UInt64
deriving DecidableEq

namespace Superblock

/-- The magic number. -/
def magicNumber : UInt16 := 0x666F

/-- Size of the encoded superblock in bytes. -/
def encodedSize : Nat := 48

/-- The flag of a deduplicating volume. -/
def dedupFlag : UInt64 := 1

/-- The greatest number of slots of a volume. -/
def maxBlocks : Nat := 1 <<< 30

/-- The 48 bytes of a superblock. -/
def encode (sb : Superblock) : ByteArray :=
  bytesOf (leBytes 2 sb.magic.toNat ++ leBytes 2 sb.size.toNat ++
    leBytes 8 sb.bitmapOffset.toNat ++ leBytes 8 sb.keysOffset.toNat ++
    leBytes 8 sb.dataOffset.toNat ++ leBytes 4 sb.blockCount.toNat ++
    leBytes 8 sb.flags.toNat ++ leBytes 8 sb.volumeSize.toNat)

/-- The superblock in the first 48 bytes of `b`, unchecked. -/
def decode (b : ByteArray) : Except SuperblockFault Superblock :=
  if b.size < encodedSize then .error .truncated
  else .ok {
    magic := UInt16.ofNat (leNat b 0 2)
    size := UInt16.ofNat (leNat b 2 2)
    bitmapOffset := UInt64.ofNat (leNat b 4 8)
    keysOffset := UInt64.ofNat (leNat b 12 8)
    dataOffset := UInt64.ofNat (leNat b 20 8)
    blockCount := UInt32.ofNat (leNat b 28 4)
    flags := UInt64.ofNat (leNat b 32 8)
    volumeSize := UInt64.ofNat (leNat b 40 8) }

/-- The number of slots. -/
def slots (sb : Superblock) : Nat := sb.blockCount.toNat

/-- The volume deduplicates. -/
def isDedup (sb : Superblock) : Bool := sb.flags &&& dedupFlag != 0

/-- The first block of the bitmap. -/
def bitmapStart (sb : Superblock) : Nat := sb.bitmapOffset.toNat / blockSize

/-- The first block of the key table. -/
def keysStart (sb : Superblock) : Nat := sb.keysOffset.toNat / blockSize

/-- The first data block. -/
def dataStart (sb : Superblock) : Nat := sb.dataOffset.toNat / blockSize

/-- The first block of the dedup table: the one after the key table. -/
def dedupStart (sb : Superblock) : Nat :=
  (sb.keysOffset.toNat + paddedSize (sb.slots * recordSize)) / blockSize

/-- The number of blocks of the dedup table: all up to the data blocks. -/
def dedupBlocks (sb : Superblock) : Nat :=
  if sb.isDedup then sb.dataStart - sb.dedupStart else 0

/-- The device block that a slot owns. -/
def dataBlock (sb : Superblock) (slot : Nat) : Nat := sb.dataStart + slot

/-- The slot that owns a device block. -/
def slotOfBlock (sb : Superblock) (block : Nat) : Option Nat :=
  if sb.dataStart ≤ block ∧ block < sb.dataStart + sb.slots then some (block - sb.dataStart)
  else none

/-- The offset is a whole number of blocks. -/
def checkAligned (offset : Offset) (value : UInt64) : Except SuperblockFault Unit :=
  if value.toNat % blockSize = 0 then .ok () else .error (.misaligned offset value.toNat)

/-- Checks that the superblock describes a volume that fits on a device of `length` bytes. The first
fault counts. -/
def validate (sb : Superblock) (length : Nat) : Except SuperblockFault Unit := do
  if sb.magic ≠ magicNumber then
    throw (.badMagic magicNumber sb.magic)
  if sb.size.toNat ≠ encodedSize then
    throw (.badSize sb.size.toNat encodedSize)
  if sb.slots = 0 ∨ maxBlocks < sb.slots then
    throw (.blockCountOutOfRange sb.slots)
  checkAligned .bitmap sb.bitmapOffset
  checkAligned .keys sb.keysOffset
  checkAligned .data sb.dataOffset
  let bitmap := sb.bitmapOffset.toNat
  let keys := sb.keysOffset.toNat
  let data := sb.dataOffset.toNat
  if ¬ (keys < data ∧ bitmap < keys ∧ sb.size.toNat < bitmap) then
    throw .regionsOutOfOrder
  if keys - bitmap < ceilDiv sb.slots 8 then
    throw .bitmapTooSmall
  let keysEnd := keys + sb.slots * recordSize
  if 1 <<< 64 ≤ keysEnd then
    throw .keyTableOverflow
  if data < keysEnd then
    throw .keyTableOverlap
  if sb.isDedup ∧ sb.dedupBlocks = 0 then
    throw .missingDedupTable
  let dataEnd := data + sb.slots * blockSize
  if 1 <<< 64 ≤ dataEnd then
    throw .dataOverflow
  if sb.volumeSize.toNat < dataEnd then
    throw (.sizeTooSmall sb.volumeSize.toNat dataEnd)
  if length < sb.volumeSize.toNat then
    throw (.deviceTooShort length sb.volumeSize.toNat)

/-- Block 0 of a device, checked against the size of the device. -/
def read (d : Device) : Except StoreError Superblock := do
  let b ← d.readBlock 0
  match decode b.bytes with
  | .error fault => throw (.corruptSuperblock fault)
  | .ok sb =>
    match sb.validate d.size with
    | .error fault => throw (.corruptSuperblock fault)
    | .ok () => return sb

/-- Block 0 of the device can be read and carries the magic number. -/
def probe (d : Device) : Bool :=
  match d.readBlock 0 with
  | .error _ => false
  | .ok b =>
    match decode b.bytes with
    | .error _ => false
    | .ok sb => sb.magic == magicNumber

end Superblock

end BlockStore
