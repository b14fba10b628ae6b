import BlockStore.Device

/-!
# Table records

The key table and the dedup table are rows of 32-byte records, packed 128 to a block:

| bytes  | field                                  |
|--------|----------------------------------------|
| 0..20  | key                                    |
| 20..22 | flags                                  |
| 22..24 | reference count                        |
| 24..32 | a word: a timestamp or a block number  |

Numbers are little-endian. A record is replaced by reading its block, patching the 32 bytes and
writing the block back.

## Main definitions

* `Record`: the fields; `Record.encode`, `Record.decode`: their bytes, and the fields in bytes.
* `Block.record`, `Block.setRecord`: one of the records of a block.
* `RecordTable`: the row that starts at a block; `RecordTable.read`, `RecordTable.write` its
  records by index.
-/

namespace BlockStore

/-- Size of a record in bytes. -/
def recordSize : Nat := 32

/-- Records in a block. -/
def recordsPerBlock : Nat := blockSize / recordSize

/-- The fields of a table record. -/
structure Record where
  /-- A key. -/
  key : Key
  /-- Flag bits. -/
  flags : UInt16
  /-- A reference count. -/
  refCount : UInt16
  /-- A timestamp or a block number. -/
  word : UInt64
deriving DecidableEq

namespace Record

/-- The 32 bytes of a record. -/
def encode (r : Record) : ByteArray :=
  r.key.bytes ++ bytesOf (leBytes 2 r.flags.toNat ++ leBytes 2 r.refCount.toNat ++
    leBytes 8 r.word.toNat)

/-- The record in the 32 bytes from position `i` on. -/
def decode (b : ByteArray) (i : Nat) : Record where
  key := .ofBytes b i
  flags := UInt16.ofNat (leNat b (i + 20) 2)
  refCount := UInt16.ofNat (leNat b (i + 22) 2)
  word := UInt64.ofNat (leNat b (i + 24) 8)

theorem size_encode (r : Record) : r.encode.size = recordSize := by
  simp [encode, r.key.size_eq, keySize, recordSize]

end Record

namespace Block

/-- The record with this index in the block. -/
def record (b : Block) (i : Nat) : Record := .decode b.bytes (i * recordSize)

/-- The block with the record at this index replaced. -/
def setRecord (b : Block) (i : Nat) (r : Record) : Block := b.patch (i * recordSize) r.encode

/-- The block filled with copies of a record. -/
def ofRecord (r : Record) : Block :=
  .ofBytes ((List.replicate recordsPerBlock r.encode).foldl (· ++ ·) .empty)

end Block

/-- The row of records that starts at a block. -/
structure RecordTable where
  /-- The first block. -/
  start : Nat

namespace RecordTable

/-- The block that holds a record. -/
def blockOf (t : RecordTable) (i : Nat) : Nat := t.start + i / recordsPerBlock

/-- The record with an index. -/
def read (t : RecordTable) (d : Device) (i : Nat) : Except StoreError Record := do
  let b ← d.readBlock (t.blockOf i)
  return b.record (i % recordsPerBlock)

/-- Replaces the record with an index. -/
def write (t : RecordTable) (i : Nat) (r : Record) : DeviceM Unit := do
  let b ← Device.look (·.readBlock (t.blockOf i))
  Device.writeBlock (t.blockOf i) (b.setRecord (i % recordsPerBlock) r)

/-- The first `count` records of block number `k` of the row, with their indices. -/
def recordsIn (b : Block) (k count : Nat) : List (Nat × Record) :=
  (List.range count).map fun i => (k * recordsPerBlock + i, b.record i)

end RecordTable

end BlockStore
