import BlockStore.Block
import BlockStore.Key
import BlockStore.Text.Quoted

/-!
# Errors

Why an operation fails. Each type names causes; the wording is in its `message` alone.

## Main definitions

* `SystemError`: what the operating system reports about a file.
* `DeviceError`: why a device refuses a transfer.
* `SuperblockFault`: why a superblock does not describe a volume.
* `StoreError`: why a table or a volume refuses an operation.
-/

namespace BlockStore

/-- What the operating system reports about a file. -/
inductive SystemError where
  /-- Nothing has the name. -/
  | noSuchFile
  /-- A part of the path that is not its last is no directory. -/
  | notADirectory
  /-- A directory stands where a file is wanted. -/
  | isADirectory
  /-- A position that is no signed 64-bit number. -/
  | invalidArgument
  /-- A position past the largest file. -/
  | fileTooLarge
  /-- A size that is no signed 64-bit number. -/
  | sizeOutOfRange
  /-- A name that is longer than names can be. -/
  | nameTooLong
  /-- A name with a character that ends names. -/
  | nulInName
  /-- Any other report, by its text and number. -/
  | other (text : String) (number : Nat)
deriving DecidableEq

namespace SystemError

/-- The system's text for the error. -/
def message : SystemError → String
  | .noSuchFile => "No such file or directory (os error 2)"
  | .notADirectory => "Not a directory (os error 20)"
  | .isADirectory => "Is a directory (os error 21)"
  | .invalidArgument => "Invalid argument (os error 22)"
  | .fileTooLarge => "File too large (os error 27)"
  | .sizeOutOfRange => "number too large to fit in target type"
  | .nameTooLong => "File name too long (os error 36)"
  | .nulInName => "file name contained an unexpected NUL byte"
  | .other text number => s!"{text} (os error {number})"

/-- The error with a number, and a text for one that has no name here. -/
def ofNumber (number : Nat) (text : String) : SystemError :=
  match number with
  | 2 => .noSuchFile
  | 20 => .notADirectory
  | 21 => .isADirectory
  | 22 => .invalidArgument
  | 27 => .fileTooLarge
  | 36 => .nameTooLong
  | _ => .other text number

end SystemError

/-- Why a device refuses a transfer. -/
inductive DeviceError where
  /-- The blocks read are not all there. -/
  | readPastEnd (block : Nat)
  /-- The blocks written are not all there. -/
  | writePastEnd (block : Nat)
  /-- The data is not a whole number of blocks. -/
  | unaligned (size : Nat)
  /-- The byte position of the first block is no 64-bit number. -/
  | blockOverflow
  /-- The byte position after the last block is no 64-bit number. -/
  | rangeOverflow
  /-- A file ended before the blocks read did. -/
  | shortRead
  /-- A fault was planned for the read that starts at the block. -/
  | readFault (block : Nat)
  /-- A fault was planned for the write that starts at the block. -/
  | writeFault (block : Nat)
  /-- The operating system refused. -/
  | system (cause : SystemError)
deriving DecidableEq

/-- The text of a device error. -/
def DeviceError.message : DeviceError → String
  | .readPastEnd block => s!"read past end of device at block {block}"
  | .writePastEnd block => s!"write past end of device at block {block}"
  | .unaligned size => s!"write of {size} bytes is not block aligned"
  | .blockOverflow => "block number overflow"
  | .rangeOverflow => "block range overflow"
  | .shortRead => "failed to fill whole buffer"
  | .readFault block => s!"injected read fault at block {block}"
  | .writeFault block => s!"injected write fault at block {block}"
  | .system cause => cause.message

/-- The byte offsets that a superblock records. -/
inductive Offset where
  /-- Start of the free-space bitmap. -/
  | bitmap
  /-- Start of the key table. -/
  | keys
  /-- Start of the data blocks. -/
  | data
deriving DecidableEq

/-- The name of an offset in messages. -/
def Offset.name : Offset → String
  | .bitmap => "freelist_off"
  | .keys => "inode_off"
  | .data => "data_off"

/-- Why a superblock does not describe a volume. -/
inductive SuperblockFault where
  /-- Fewer bytes than a superblock has. -/
  | truncated
  /-- The magic number is another. -/
  | badMagic (expected actual : UInt16)
  /-- The recorded size of the superblock is another. -/
  | badSize (actual expected : Nat)
  /-- No volume has this number of blocks. -/
  | blockCountOutOfRange (count : Nat)
  /-- An offset is inside a block. -/
  | misaligned (offset : Offset) (value : Nat)
  /-- The regions do not follow each other. -/
  | regionsOutOfOrder
  /-- The bitmap has fewer bits than there are slots. -/
  | bitmapTooSmall
  /-- The end of the key table is no 64-bit number. -/
  | keyTableOverflow
  /-- The key table reaches into the data blocks. -/
  | keyTableOverlap
  /-- The flag promises a dedup table that has no room. -/
  | missingDedupTable
  /-- The end of the data blocks is no 64-bit number. -/
  | dataOverflow
  /-- The recorded size of the volume leaves out data blocks. -/
  | sizeTooSmall (size dataEnd : Nat)
  /-- The device is shorter than the volume. -/
  | deviceTooShort (length needed : Nat)
deriving DecidableEq

/-- The text of a superblock fault. -/
def SuperblockFault.message : SuperblockFault → String
  | .truncated => "superblock truncated"
  | .badMagic expected actual =>
    s!"bad magic: expected 0x{hexOfNat 4 expected.toNat}, got 0x{hexOfNat 4 actual.toNat}"
  | .badSize actual expected => s!"superblock size {actual} (expected {expected})"
  | .blockCountOutOfRange count => s!"block count {count} out of range"
  | .misaligned offset value => s!"{offset.name} 0x{hexOfNat 1 value} is not block aligned"
  | .regionsOutOfOrder => "regions out of order"
  | .bitmapTooSmall => "bitmap region too small"
  | .keyTableOverflow => "key table end overflows"
  | .keyTableOverlap => "key table overlaps data region"
  | .missingDedupTable => "dedup volume without dedup table"
  | .dataOverflow => "data region end overflows"
  | .sizeTooSmall size dataEnd => s!"fs_size {size} smaller than data end {dataEnd}"
  | .deviceTooShort length needed => s!"device holds {length} bytes, filesystem needs {needed}"

/-- What an operation looked for in vain. -/
inductive Missing where
  /-- A key that is not stored. -/
  | key (k : Key)
  /-- An entry of the dedup table for a block. -/
  | dedupEntry (block : Nat)
  /-- A block outside the data region. -/
  | dataBlock (block : Nat)
deriving DecidableEq

/-- The text of a missing thing. -/
def Missing.message : Missing → String
  | .key k => s!"key {k.encode}"
  | .dedupEntry block => s!"dedup entry for block {block}"
  | .dataBlock block => s!"data block {block}"

/-- What an operation demands of a slot. -/
inductive SlotDemand where
  /-- Its entry is free. -/
  | free
  /-- Its entry holds a key. -/
  | active
  /-- The bitmap has a bit for it. -/
  | withinVolume
  /-- The key table has an entry for it. -/
  | withinKeyTable
deriving DecidableEq

/-- The text of a demand. -/
def SlotDemand.message : SlotDemand → String
  | .free => "free"
  | .active => "active"
  | .withinVolume => "within the volume"
  | .withinKeyTable => "within the key table"

/-- Why a table or a volume refuses an operation. -/
inductive StoreError where
  /-- The device refused a transfer. -/
  | device (cause : DeviceError)
  /-- The text is not 40 hex digits. -/
  | invalidKey (text : String)
  /-- Something is not there. -/
  | notFound (what : Missing)
  /-- The key is stored already. -/
  | keyExists (k : Key)
  /-- No slot is free. -/
  | noSpace
  /-- No entry of the dedup table is free. -/
  | tableFull
  /-- The shared block has as many references as can be counted. -/
  | refcountSaturated (block : Nat)
  /-- The superblock does not describe a volume. -/
  | corruptSuperblock (fault : SuperblockFault)
  /-- The value is larger than a block. -/
  | valueTooLarge (size : Nat)
  /-- The slot is not what the operation demands. -/
  | slotState (slot : Nat) (demand : SlotDemand)
deriving DecidableEq

/-- The text of a store error. -/
def StoreError.message : StoreError → String
  | .device cause => s!"I/O error: {cause.message}"
  | .invalidKey text => s!"invalid key format: {quoted text} (expected {2 * keySize} hex digits)"
  | .notFound what => s!"not found: {what.message}"
  | .keyExists k => s!"key already exists: {k.encode}"
  | .noSpace => "no free blocks left"
  | .tableFull => "dedup table is full"
  | .refcountSaturated block => s!"reference count of block {block} is saturated"
  | .corruptSuperblock fault => s!"corrupt superblock: {fault.message}"
  | .valueTooLarge size => s!"value of {size} bytes exceeds block size {blockSize}"
  | .slotState slot demand => s!"slot {slot} is not {demand.message}"

/-- The key written by a text from outside. -/
def Key.decode (s : String) : Except StoreError Key :=
  match Key.decode? s with
  | some k => .ok k
  | none => .error (.invalidKey s)

end BlockStore
