import BlockStore.Allocator
import BlockStore.Digest
import BlockStore.Layout

/-!
# Volumes

A volume is a device with the superblock read from it and the allocator of its slots. On a plain
volume the data block of a key's slot holds the value. On a deduplicating one it holds a pointer to
the block with the value, zero while there is none: that block belongs to a slot whose key entry
stays free while its bit is set, and the dedup table keeps it alive.

This module has what only reads; each query is a function of the volume.

## Main definitions

* `Volume`: the device and the state in memory; `Volume.attach` reads that state from a device.
* `Volume.lookup`, `Volume.get`, `Volume.list`, `Volume.stat`, `Volume.statfs`: the queries.
-/

namespace BlockStore

/-- A device that holds a volume, with the state kept in memory. -/
structure Volume where
  /-- The device. -/
  device : Device
  /-- Where the regions lie. -/
  superblock : Superblock
  /-- Which slots are in use. -/
  allocator : Allocator

/-- What is known of a key. -/
structure EntryInfo where
  /-- The key. -/
  key : Key
  /-- Its slot. -/
  slot : Nat
  /-- When its value was last stored. -/
  timestamp : Timestamp
  /-- The block with the value, if there is one. -/
  dataBlock : Option Nat
  /-- References to that block, if the dedup table has an entry for it. -/
  sharedRefs : Option Nat
deriving DecidableEq

/-- Usage of a volume. -/
structure VolumeStats where
  /-- Size of a block. -/
  blockSize : Nat
  /-- The number of slots. -/
  blockCount : Nat
  /-- Slots not in use. -/
  freeBlocks : Nat
  /-- Slots in use: those that are not free, as a 64-bit difference. -/
  usedBlocks : UInt64
  /-- Stored keys. -/
  keys : Nat
  /-- Bytes that the volume takes. -/
  size : Nat
  /-- Usage of the dedup table, if there is one. -/
  dedup : Option DedupStats
deriving DecidableEq

/-- The items of a list, or its first error. -/
def collect {α : Type} : List (Except StoreError α) → Except StoreError (List α)
  | [] => .ok []
  | .error e :: _ => .error e
  | .ok a :: rest => do
    let as ← collect rest
    return a :: as

namespace Volume

/-- The volume on a device, as its superblock and its bitmap say. -/
def attach (d : Device) : Except StoreError Volume := do
  let sb ← Superblock.read d
  let allocator ← Allocator.read d sb.bitmapOffset.toNat sb.slots
  return { device := d, superblock := sb, allocator }

/-- The key table. -/
def keyTable (v : Volume) : KeyTable := .atOffset v.superblock.keysOffset.toNat v.superblock.slots

/-- The dedup table of a deduplicating volume. -/
def dedupTable (v : Volume) : Option DedupTable :=
  if v.superblock.isDedup then some ⟨v.superblock.dedupStart, v.superblock.dedupBlocks⟩ else none

/-- The number of free slots. -/
def freeCount (v : Volume) : Nat := v.allocator.freeCount

/-- The slot that holds a key. -/
def lookup (v : Volume) (key : Key) : Except StoreError Nat := v.keyTable.lookup v.device key

/-- Whether a key is stored. -/
def contains (v : Volume) (key : Key) : Except StoreError Bool :=
  match v.lookup key with
  | .ok _ => .ok true
  | .error (.notFound _) => .ok false
  | .error e => .error e

/-- The slot and key of every stored key, in slot order; an error is the last item. -/
def entries (v : Volume) : List (Except StoreError (Nat × Key)) := v.keyTable.activeKeys v.device

/-- The stored keys, in slot order. -/
def list (v : Volume) : Except StoreError (List Key) := do
  let items ← collect v.entries
  return items.map Prod.snd

/-- The pointer in the data block of a slot of a deduplicating volume. -/
def readPointer (v : Volume) (slot : Nat) : Except StoreError Nat := do
  let b ← v.device.readBlock (v.superblock.dataBlock slot)
  return leNat b.bytes 0 8

/-- The block that holds the value of a slot, if it has one. A pointer that leaves the data blocks
is an error. -/
def valueBlock (v : Volume) (slot : Nat) : Except StoreError (Option Nat) := do
  if v.superblock.isDedup then
    let pointer ← v.readPointer slot
    if pointer = 0 then
      return none
    else if (v.superblock.slotOfBlock pointer).isNone then
      throw (.notFound (.dataBlock pointer))
    else
      return some pointer
  else
    return some (v.superblock.dataBlock slot)

/-- The value of a key: always a whole block, and zeros if none was ever stored. -/
protected def get (v : Volume) (key : Key) : Except StoreError Block := do
  let slot ← v.lookup key
  match ← v.valueBlock slot with
  | some block => v.device.readBlock block
  | none => return .zero

/-- References to a block, if the volume has a dedup table with an entry for it. -/
def sharedRefs (v : Volume) (block : Nat) : Except StoreError (Option Nat) :=
  match v.dedupTable with
  | none => .ok none
  | some table => do
    let located ← table.locate v.device (.block block)
    return located.found.map fun (_, e) => e.refCount.toNat

/-- What is known of a key. -/
def stat (v : Volume) (key : Key) : Except StoreError EntryInfo := do
  let slot ← v.lookup key
  let e ← v.keyTable.entry v.device slot
  let dataBlock ← v.valueBlock slot
  let sharedRefs ← match dataBlock with
    | none => pure none
    | some block => v.sharedRefs block
  return { key := e.key, slot, timestamp := e.timestamp, dataBlock, sharedRefs }

/-- Usage of the volume. -/
def statfs (v : Volume) : Except StoreError VolumeStats := do
  let keys ← collect v.entries
  let dedup ← match v.dedupTable with
    | none => pure none
    | some table => do
      let stats ← table.stats v.device
      pure (some stats)
  return {
    blockSize := BlockStore.blockSize
    blockCount := v.superblock.slots
    freeBlocks := v.freeCount
    usedBlocks := UInt64.ofNat v.superblock.slots - UInt64.ofNat v.freeCount
    keys := keys.length
    size := v.superblock.volumeSize.toNat
    dedup }

end Volume

end BlockStore
