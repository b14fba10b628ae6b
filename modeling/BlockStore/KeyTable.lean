import BlockStore.Record
import BlockStore.Timestamp

/-!
# The key table

One record for each slot. A slot is also the index of its data block, so a key is found by scanning
the table and its value lies where the slot says.

An entry is active when it holds a key and free when it holds none; flags that say both or neither
are damage, left for the consistency check.

## Main definitions

* `KeyEntry`: an entry; `KeyEntry.encode`, `KeyEntry.decode` its 32 bytes.
* `KeyTable.entries`: every entry in slot order, up to the first block that cannot be read.
* `KeyTable.activeKeys`, `KeyTable.lookup`: the stored keys, and the slot of one.
* `KeyTable.allocate`, `KeyTable.free`, `KeyTable.rename`, `KeyTable.touch`: the updates of one
  entry.
-/

namespace BlockStore

/-- An entry of the key table. -/
structure KeyEntry where
  /-- The key, zero in a free entry. -/
  key : Key
  /-- Bit 0 is set in active entries and bit 1 in free ones. -/
  flags : UInt16
  /-- One in active entries. -/
  refCount : UInt16
  /-- When the value was last stored. -/
  timestamp : Timestamp
deriving DecidableEq

namespace KeyEntry

/-- The flag of active entries. -/
def activeFlag : UInt16 := 0x0001

/-- The flag of free entries. -/
def freeFlag : UInt16 := 0x0002

/-- The entry of a slot without a key. -/
def free : KeyEntry := ⟨.zero, freeFlag, 0, ⟨0⟩⟩

/-- The entry of a slot that holds `key` since `timestamp`. -/
def active (key : Key) (timestamp : Timestamp) : KeyEntry := ⟨key, activeFlag, 1, timestamp⟩

/-- The active flag is set and the free flag is not. -/
def isActive (e : KeyEntry) : Bool := e.flags &&& activeFlag != 0 && e.flags &&& freeFlag == 0

/-- The free flag is set and the active flag is not. -/
def isFree (e : KeyEntry) : Bool := e.flags &&& freeFlag != 0 && e.flags &&& activeFlag == 0

/-- Exactly one of the two flags is set. -/
def isValid (e : KeyEntry) : Bool := e.isActive || e.isFree

/-- The record of an entry. -/
def toRecord (e : KeyEntry) : Record := ⟨e.key, e.flags, e.refCount, e.timestamp.nanos⟩

/-- The entry in a record. -/
def ofRecord (r : Record) : KeyEntry := ⟨r.key, r.flags, r.refCount, ⟨r.word⟩⟩

@[simp] theorem ofRecord_toRecord (e : KeyEntry) : ofRecord e.toRecord = e := rfl

@[simp] theorem toRecord_ofRecord (r : Record) : (ofRecord r).toRecord = r := rfl

/-- The 32 bytes of an entry. -/
def encode (e : KeyEntry) : ByteArray := e.toRecord.encode

/-- The entry in the first 32 bytes of `b`. -/
def decode (b : ByteArray) : KeyEntry := ofRecord (.decode b 0)

end KeyEntry

/-- A key table on a device. -/
structure KeyTable where
  /-- The first block. -/
  start : Nat
  /-- The number of entries. -/
  slots : Nat
deriving DecidableEq

namespace KeyTable

/-- The table at a byte offset. -/
def atOffset (offset slots : Nat) : KeyTable := ⟨offset / blockSize, slots⟩

/-- The row of records that holds the table. -/
def records (t : KeyTable) : RecordTable := ⟨t.start⟩

/-- The slot has an entry in the table. -/
def demandSlot (t : KeyTable) (slot : Nat) : Except StoreError Unit :=
  if slot < t.slots then .ok () else .error (.slotState slot .withinKeyTable)

/-- The entry of a slot. -/
def entry (t : KeyTable) (d : Device) (slot : Nat) : Except StoreError KeyEntry := do
  t.demandSlot slot
  return .ofRecord (← t.records.read d slot)

/-- Replaces the entry of a slot. -/
def writeEntry (t : KeyTable) (slot : Nat) (e : KeyEntry) : DeviceM Unit := do
  query fun _ => t.demandSlot slot
  t.records.write slot e.toRecord

/-- The entries in the last `blocks` blocks of the table, of which `k` is the number of the first.
A block that cannot be read ends the list with its error. -/
def entriesFrom (t : KeyTable) (d : Device) : (blocks k : Nat) →
    List (Except StoreError (Nat × KeyEntry))
  | 0, _ => []
  | blocks + 1, k =>
    match d.readBlock (t.start + k) with
    | .error e => [.error e]
    | .ok b =>
      (RecordTable.recordsIn b k (min recordsPerBlock (t.slots - k * recordsPerBlock))).map
        (fun (slot, r) => .ok (slot, .ofRecord r)) ++ entriesFrom t d blocks (k + 1)

/-- Every entry with its slot, in slot order; an error is the last item. -/
def entries (t : KeyTable) (d : Device) : List (Except StoreError (Nat × KeyEntry)) :=
  t.entriesFrom d (ceilDiv t.slots recordsPerBlock) 0

/-- Keeps the active entries of a list, as slot and key, and its errors. -/
def activeOf : List (Except StoreError (Nat × KeyEntry)) → List (Except StoreError (Nat × Key))
  | [] => []
  | .error e :: rest => .error e :: activeOf rest
  | .ok (slot, e) :: rest =>
    if e.isActive then .ok (slot, e.key) :: activeOf rest else activeOf rest

/-- The slot and key of every active entry, in slot order; an error is the last item. -/
def activeKeys (t : KeyTable) (d : Device) : List (Except StoreError (Nat × Key)) :=
  activeOf (t.entries d)

/-- The slot of the first item with the key, unless an error comes before it. -/
def findKey (key : Key) : List (Except StoreError (Nat × Key)) → Except StoreError Nat
  | [] => .error (.notFound (.key key))
  | .error e :: _ => .error e
  | .ok (slot, k) :: rest => if k = key then .ok slot else findKey key rest

/-- The lowest active slot that holds the key. -/
def lookup (t : KeyTable) (d : Device) (key : Key) : Except StoreError Nat :=
  findKey key (t.activeKeys d)

/-- The entry of a slot that must be active. -/
def activeEntry (t : KeyTable) (d : Device) (slot : Nat) : Except StoreError KeyEntry := do
  let e ← t.entry d slot
  if e.isActive then return e else throw (.slotState slot .active)

/-- Makes a free slot hold a key. -/
def allocate (t : KeyTable) (slot : Nat) (key : Key) (timestamp : Timestamp) : DeviceM Unit := do
  let e ← Device.look (t.entry · slot)
  if e.isFree then
    t.writeEntry slot (.active key timestamp)
  else
    throw (.slotState slot .free)

/-- Makes a slot free, whatever it holds. -/
def free (t : KeyTable) (slot : Nat) : DeviceM Unit := t.writeEntry slot .free

/-- Gives an active slot another key, and changes nothing else of it. -/
def rename (t : KeyTable) (slot : Nat) (key : Key) : DeviceM Unit := do
  let e ← Device.look (t.activeEntry · slot)
  t.writeEntry slot { e with key }

/-- Gives an active slot another timestamp, and changes nothing else of it. -/
def touch (t : KeyTable) (slot : Nat) (timestamp : Timestamp) : DeviceM Unit := do
  let e ← Device.look (t.activeEntry · slot)
  t.writeEntry slot { e with timestamp }

end KeyTable

end BlockStore
