import BlockStore.Device

/-!
# The slot allocator

One bit for each slot says whether it is in use, the highest bit of a byte first. The bitmap on the
device is the truth; the list of free slots is rebuilt from it and hands slots out. Every change
sets or clears one bit and writes the one block that holds it.

Memory changes first. If the write then fails, what was changed is put back: the byte by the action
that sets the bit, the slot by the one that took it off the list.

## Main definitions

* `testSlot`, `assignSlot`: a bit of a bitmap, and a bitmap with one bit set or cleared.
* `Allocator`: the bitmap in memory and the free slots, next one first.
* `Allocator.load`, `Allocator.read`: from bitmap bytes, and from a device.
* `AllocatorM`: actions on an allocator and the device with its bitmap.
* `Allocator.acquire`, `Allocator.release`, `Allocator.markUsed`: the changes.
-/

namespace BlockStore

/-- The bit of a slot in a bitmap. -/
def testSlot (bitmap : ByteArray) (slot : Nat) : Bool :=
  (byteAt bitmap (slot / 8)).toNat.testBit (7 - slot % 8)

/-- The byte in which only the bit of a slot is set. -/
def slotMask (slot : Nat) : UInt8 := 0x80 >>> UInt8.ofNat (slot % 8)

/-- The bitmap with the bit of a slot set or cleared. -/
def assignSlot (bitmap : ByteArray) (slot : Nat) (used : Bool) : ByteArray :=
  let byte := byteAt bitmap (slot / 8)
  bitmap.set! (slot / 8) (if used then byte ||| slotMask slot else byte &&& ~~~ slotMask slot)

/-- Which slots of a volume are in use. -/
structure Allocator where
  /-- The first block of the bitmap. -/
  start : Nat
  /-- The number of slots. -/
  slots : Nat
  /-- The bitmap, padded to whole blocks. -/
  bitmap : ByteArray
  /-- The free slots; the head is handed out next. -/
  free : List Nat

/-- Actions on an allocator and the device with its bitmap. What an action has done to either before
it fails stays done. -/
abbrev AllocatorM := EStateM StoreError (Allocator × Device)

namespace Allocator

/-- Bytes of the padded bitmap of `slots` slots. -/
def bitmapSize (slots : Nat) : Nat := paddedSize (ceilDiv slots 8)

/-- The allocator of a bitmap at a byte offset. Bits past the last slot count for nothing, and the
lowest free slot is handed out first. -/
def load (offset : Nat) (bitmap : ByteArray) (slots : Nat) : Allocator :=
  let bitmap := fit bitmap (bitmapSize slots)
  { start := offset / blockSize, slots, bitmap
    free := (List.range slots).filter fun slot => !testSlot bitmap slot }

/-- The allocator of the bitmap at a byte offset of a device. -/
def read (d : Device) (offset slots : Nat) : Except StoreError Allocator :=
  match d.read (offset / blockSize) (bitmapSize slots / blockSize) with
  | .ok bitmap => .ok (load offset bitmap slots)
  | .error e => .error (.device e)

/-- The number of free slots. -/
def freeCount (a : Allocator) : Nat := a.free.length

/-- The slot exists and its bit is set. -/
def isUsed (a : Allocator) (slot : Nat) : Bool := slot < a.slots && testSlot a.bitmap slot

/-- Changes the allocator in memory. -/
def change (f : Allocator → Allocator) : AllocatorM Unit := modify fun (a, d) => (f a, d)

/-- Writes a block of the bitmap in memory to the device. -/
def writeBitmap (k : Nat) : AllocatorM Unit := fun (a, d) =>
  match Device.write (a.start + k) (a.bitmap.extract (k * blockSize) ((k + 1) * blockSize)) d with
  | .ok () d => .ok () (a, d)
  | .error e d => .error e (a, d)

/-- Sets or clears the bit of a slot, in memory and then on the device. If its block cannot be
written, the byte gets back the value it had. -/
def setBit (slot : Nat) (used : Bool) : AllocatorM Unit := do
  let (a, _) ← get
  if slot < a.slots then
    let before := byteAt a.bitmap (slot / 8)
    change fun a => { a with bitmap := assignSlot a.bitmap slot used }
    try writeBitmap (slot / 8 / blockSize)
    catch e => do
      change fun a => { a with bitmap := a.bitmap.set! (slot / 8) before }
      throw e
  else throw (.slotState slot .withinVolume)

/-- Takes the next free slot off the list and marks it used. If that fails, the slot goes back. -/
def acquire : AllocatorM Nat := do
  let (a, _) ← get
  match a.free with
  | [] => throw .noSpace
  | slot :: free => do
    change fun a => { a with free }
    try setBit slot true
    catch e => do
      change fun a => { a with free := slot :: a.free }
      throw e
    return slot

/-- Clears the bit of a slot, which becomes the next one handed out. That the slot was in use is the
caller's promise. -/
def release (slot : Nat) : AllocatorM Unit := do
  setBit slot false
  change fun a => { a with free := slot :: a.free }

/-- Sets the bit of a slot that turned out to be referenced, and takes it off the free list. -/
def markUsed (slot : Nat) : AllocatorM Unit := do
  setBit slot true
  change fun a => { a with free := a.free.filter (· ≠ slot) }

end Allocator

end BlockStore
