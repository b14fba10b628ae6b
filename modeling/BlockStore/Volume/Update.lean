import BlockStore.Volume

/-!
# Changing a volume

No operation is atomic. Each is a sequence of block writes in an order that a crash after any of
them leaves the volume consistent but for space that nobody uses:

* creating a key takes a slot, sets its bit and then writes the entry;
* removing one frees the entry, zeroes the data block and then clears the bit;
* storing a value in a deduplicating volume fills a block, enters it in the dedup table, writes the
  pointer and only then drops the reference to the old block;
* dropping the last reference frees the dedup entry before the block is given back.

What an operation has done before it fails stays done, in memory as on the device.

## Main definitions

* `VolumeM`: actions on a volume; `Volume.look`, `Volume.onDevice`: those that only read, and those
  on its device.
* `Volume.create`, `Volume.put`, `Volume.remove`, `Volume.rename`: the operations.
* `Volume.reclaim`, `Volume.discardSlot`, `Volume.storeShared`, `Volume.dropShared`: their parts.
-/

namespace BlockStore

/-- Actions on a volume. What an action has done before it fails stays done. -/
abbrev VolumeM := EStateM StoreError Volume

namespace Volume

/-- The volume after a transfer that left the contents of its device alone. -/
def tick (v : Volume) : Volume := { v with device := v.device.tick }

/-- An action that only reads, and counts as one transfer of the device. -/
def look {α : Type} (f : Volume → Except StoreError α) : VolumeM α := fun v =>
  match f v with
  | .ok a => .ok a v.tick
  | .error e => .error e v.tick

/-- An action on the device of a volume. -/
def onDevice {α : Type} (act : DeviceM α) : VolumeM α := fun v =>
  match v with
  | ⟨device, superblock, allocator⟩ =>
    match act device with
    | .ok a device => .ok a ⟨device, superblock, allocator⟩
    | .error e device => .error e ⟨device, superblock, allocator⟩

/-- An action on the allocator of a volume and its device. -/
def onAllocator {α : Type} (act : AllocatorM α) : VolumeM α := fun v =>
  match v with
  | ⟨device, superblock, allocator⟩ =>
    match act (allocator, device) with
    | .ok a (allocator, device) => .ok a ⟨device, superblock, allocator⟩
    | .error e (allocator, device) => .error e ⟨device, superblock, allocator⟩

/-- Takes a free slot and marks it used. -/
def acquire : VolumeM Nat := onAllocator Allocator.acquire

/-- Clears the bit of a slot and makes it the next one handed out. -/
def release (slot : Nat) : VolumeM Unit := onAllocator (Allocator.release slot)

/-- Sets the bit of a slot that is referenced. -/
def markUsed (slot : Nat) : VolumeM Unit := onAllocator (Allocator.markUsed slot)

/-- Writes the data block of a slot. -/
def writeData (slot : Nat) (b : Block) : VolumeM Unit := do
  let sb := (← get).superblock
  onDevice (Device.writeBlock (sb.dataBlock slot) b)

/-- Zeroes the data block of a slot, then gives the slot back. -/
def reclaim (slot : Nat) : VolumeM Unit := do
  writeData slot .zero
  release slot

/-- Frees the entry of a slot, then reclaims the slot. -/
def discardSlot (slot : Nat) : VolumeM Unit := do
  let keys := (← get).keyTable
  onDevice (keys.free slot)
  reclaim slot

/-- The block whose first eight bytes are a pointer. -/
def pointerBlock (pointer : Nat) : Block := .ofBytes (bytesOf (leBytes 8 pointer))

/-- Writes the pointer of a slot of a deduplicating volume. -/
def writePointer (slot pointer : Nat) : VolumeM Unit := writeData slot (pointerBlock pointer)

/-- Drops one reference to a shared block, and gives the block back with the last one. A block
outside the data region has no slot to give back. -/
def dropShared (table : DedupTable) (block : Nat) : VolumeM Unit := do
  let left ← onDevice (table.unref block)
  if left = 0 then
    match (← get).superblock.slotOfBlock block with
    | some slot => reclaim slot
    | none => return

/-- Registers a new key without a value and returns its slot. -/
def create (key : Key) (now : Timestamp) : VolumeM Nat := do
  if ← look (·.contains key) then
    throw (.keyExists key)
  let slot ← acquire
  let keys := (← get).keyTable
  onDevice (keys.allocate slot key now)
  return slot

/-- Makes the pointer of a slot lead to a block with these contents. A candidate block is filled
first; if the dedup table knows the contents already, the candidate is given back. -/
def storeShared (table : DedupTable) (slot : Nat) (b : Block) : VolumeM Unit := do
  let candidateSlot ← acquire
  let candidate := (← get).superblock.dataBlock candidateSlot
  writeData candidateSlot b
  let physical ←
    try onDevice (table.share (contentHash b.bytes) candidate)
    catch e => do
      reclaim candidateSlot
      throw e
  if physical ≠ candidate then
    reclaim candidateSlot
  let old ← look (·.readPointer slot)
  writePointer slot physical
  if old ≠ 0 then
    dropShared table old

/-- Stores the contents of a slot. -/
def store (slot : Nat) (b : Block) : VolumeM Unit := do
  match (← get).dedupTable with
  | none => writeData slot b
  | some table => storeShared table slot b

/-- The slot of a key, and whether this action has created the key. -/
def obtain (key : Key) (now : Timestamp) : VolumeM (Nat × Bool) := do
  match ← look fun v => .ok (v.lookup key) with
  | .ok slot => return (slot, false)
  | .error (.notFound _) => return (← create key now, true)
  | .error e => throw e

/-- Stores a value of at most a block under a key, and returns the slot of the key. A key that is
new is created at the time `created`; if its value cannot be stored, it is discarded again. The
entry then gets the time `stored`. -/
def put (key : Key) (data : ByteArray) (created stored : Timestamp) : VolumeM Nat := do
  if blockSize < data.size then
    throw (.valueTooLarge data.size)
  let (slot, isNew) ← obtain key created
  try store slot (.ofBytes data)
  catch e => do
    if isNew then
      try discardSlot slot
      catch _ => pure ()
    throw e
  let keys := (← get).keyTable
  onDevice (keys.touch slot stored)
  return slot

/-- Deletes a key and gives its blocks back. -/
def remove (key : Key) : VolumeM Unit := do
  let slot ← look (·.lookup key)
  match (← get).dedupTable with
  | none => discardSlot slot
  | some table => do
    let pointer ← look (·.readPointer slot)
    discardSlot slot
    if pointer ≠ 0 then
      dropShared table pointer

/-- Gives the value of one key the name of another. The data does not move. -/
def rename (old new : Key) : VolumeM Unit := do
  let slot ← look (·.lookup old)
  if old ≠ new then
    if ← look (·.contains new) then
      throw (.keyExists new)
    let keys := (← get).keyTable
    onDevice (keys.rename slot new)

end Volume

end BlockStore
