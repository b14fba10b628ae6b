import BlockStore.Error
import BlockStore.Image

/-!
# Devices

A device is a row of bytes that is read and written in whole blocks. A write that is acknowledged is
complete and durable, and one that fails leaves the contents alone, so every sequence of writes is
also a sequence of the states that a crash can leave behind.

A device of fixed size refuses every range past its end. A file grows when it is written past its
end, as far as its file system lets it, and a read there comes back short.

Transfers may also fail by plan. A `FaultPlan` decides from how many transfers were attempted and
how many writes were acknowledged, so one transfer can fail while the same one succeeds before and
after. What is read at one look at the device counts as one transfer; no look reads a block twice,
so every single read can be the one that fails.

## Main definitions

* `Device`: the contents, the plan, and the acknowledged writes in order.
* `Device.read`, `Device.readBlock`: reading changes no contents, so it is a function of the device.
* `Device.look`, `Device.write`, `Device.writeBlock`: actions on a device, in `DeviceM`.
* `Device.replay`: the contents after a run of writes.
* `Device.patch`: bytes changed from outside, past the plan and the log.
* `query`: an action that only looks at the state.
-/

namespace BlockStore

/-- An acknowledged write. -/
structure Write where
  /-- The first block. -/
  block : Nat
  /-- The blocks written, end to end. -/
  data : ByteArray

namespace Write

/-- The number of blocks written. -/
def count (w : Write) : Nat := w.data.size / blockSize

end Write

/-- Which transfers fail, by the transfers attempted and the writes acknowledged before them, the
first block and the number of blocks. -/
structure FaultPlan where
  /-- The read fails. -/
  failsRead : (attempted acknowledged block count : Nat) → Bool
  /-- The write fails. -/
  failsWrite : (attempted acknowledged block count : Nat) → Bool

/-- Nothing fails. -/
def FaultPlan.none : FaultPlan := ⟨fun _ _ _ _ => false, fun _ _ _ _ => false⟩

/-- A row of bytes that is read and written in whole blocks. -/
structure Device where
  /-- The contents. -/
  image : Image
  /-- The length up to which writing past the end makes the device longer, as it does a file. A device
  of fixed size has none. -/
  limit : Option Nat := none
  /-- The transfers that fail. -/
  faults : FaultPlan := .none
  /-- The number of looks and writes attempted, whether they failed or not. -/
  attempted : Nat := 0
  /-- The acknowledged writes, in order. -/
  log : Array Write := #[]

/-- Actions on a device. What an action has done to the device before it fails stays done. -/
abbrev DeviceM := EStateM StoreError Device

/-- An action that looks at the state and changes nothing. -/
def query {σ α : Type} (f : σ → Except StoreError α) : EStateM StoreError σ α := fun s =>
  match f s with
  | .ok a => .ok a s
  | .error e => .error e s

namespace Device

/-- The device of fixed size with these contents. -/
def ofImage (image : Image) : Device := { image }

/-- The file with these contents, which can grow up to a limit. -/
def ofFile (limit : Nat) (image : Image) : Device := { image, limit := some limit }

/-- Size in bytes. -/
def size (d : Device) : Nat := d.image.size

/-- The byte position where the range of `length` bytes that starts at a block ends. Both its ends
must be 64-bit numbers. -/
def rangeEnd (block length : Nat) : Except DeviceError Nat :=
  let start := block * blockSize
  if 1 <<< 64 ≤ start then .error .blockOverflow
  else if 1 <<< 64 ≤ start + length then .error .rangeOverflow
  else .ok (start + length)

/-- Whether `count` blocks, from a block on, are there. -/
def checkHeld (d : Device) (block count : Nat) : Except DeviceError Unit := do
  let stop ← rangeEnd block (count * blockSize)
  match d.limit with
  | some _ =>
    if count ≠ 0 then
      if 1 <<< 63 ≤ stop then throw (.system .invalidArgument)
      if d.size < stop then throw .shortRead
  | none =>
    if d.size < stop then throw (.readPastEnd block)

/-- Whether `count` blocks, from a block on, can be read. -/
def checkRead (d : Device) (block count : Nat) : Except DeviceError Unit := do
  if d.faults.failsRead d.attempted d.log.size block count then
    throw (.readFault block)
  d.checkHeld block count

/-- The bytes of `count` blocks, from a block on. -/
def read (d : Device) (block count : Nat) : Except DeviceError ByteArray := do
  d.checkRead block count
  return d.image.read block count

/-- One block. -/
def readBlock (d : Device) (block : Nat) : Except StoreError Block :=
  match d.checkRead block 1 with
  | .ok () => .ok (d.image.block block)
  | .error e => .error (.device e)

/-- Whether whole blocks can be written, from a block on. -/
def checkWrite (d : Device) (block : Nat) (data : ByteArray) : Except DeviceError Unit := do
  if d.faults.failsWrite d.attempted d.log.size block (data.size / blockSize) then
    throw (.writeFault block)
  if data.size % blockSize ≠ 0 then
    throw (.unaligned data.size)
  let stop ← rangeEnd block data.size
  match d.limit with
  | some limit =>
    if data.size ≠ 0 then
      if 1 <<< 63 ≤ stop then throw (.system .invalidArgument)
      if max limit d.size < stop then throw (.system .fileTooLarge)
  | none =>
    if d.size < stop then throw (.writePastEnd block)

/-- The device after a transfer that left its contents alone. -/
def tick (d : Device) : Device := { d with attempted := d.attempted + 1 }

/-- An action that only reads, and counts as one transfer. -/
def look {α : Type} (f : Device → Except StoreError α) : DeviceM α := fun d =>
  match f d with
  | .ok a => .ok a d.tick
  | .error e => .error e d.tick

/-- Writes whole blocks, from a block on. -/
def write (block : Nat) (data : ByteArray) : DeviceM Unit := fun d =>
  match d.checkWrite block data with
  | .error e => .error (.device e) d.tick
  | .ok () =>
    let { image, limit, faults, attempted, log } := d
    .ok () {
      image := image.write block data
      limit
      faults
      attempted := attempted + 1
      log := log.push ⟨block, data⟩ }

/-- Writes one block. -/
def writeBlock (block : Nat) (b : Block) : DeviceM Unit := write block b.bytes

/-- Contents after a run of acknowledged writes. -/
def replay (image : Image) (writes : List Write) : Image :=
  writes.foldl (fun acc w => acc.write w.block w.data) image

/-- Replaces bytes from any position on. The blocks that they are in must be there; the plan and the
log do not come into it. -/
def patch (start : Nat) (data : ByteArray) : DeviceM Unit := fun d =>
  let first := start / blockSize
  match d.checkHeld first (ceilDiv (start + data.size) blockSize - first) with
  | .error e => .error (.device e) d
  | .ok () => .ok () { d with image := d.image.patch start data }

end Device

end BlockStore
