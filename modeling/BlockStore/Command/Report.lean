import BlockStore.Text.Json
import BlockStore.Text.Percent
import BlockStore.Volume.Check

/-!
# Reports

What the commands print about a volume, as text for readers and as JSON for other programs.

## Main definitions

* `Report.formatted`: a new volume.
* `Report.usage`, `Report.usageJson`: the superblock and the usage of a volume.
* `Report.check`, `Report.checkJson`: the findings of a check.
* `Report.entryLine`: a key with what is known of it.
-/

namespace BlockStore

namespace Report

/-- Lines of text, each with its line break. -/
def lines (ls : List String) : String := String.join (ls.map (· ++ "\n"))

/-- A number in a field of some width, to the right. -/
def rightAligned (width n : Nat) : String :=
  let digits := toString n
  String.ofList (List.replicate (width - digits.length) ' ') ++ digits

/-- A number with leading zeros up to some width. -/
def zeroPadded (width n : Nat) : String :=
  let digits := toString n
  String.ofList (List.replicate (width - digits.length) '0') ++ digits

/-- A new volume on the device at `path`. -/
def formatted (path : String) (sb : Superblock) (dedup : Bool) : String :=
  lines ([
    s!"Formatted {path}",
    s!"  blocks:      {sb.slots} x {blockSize} bytes",
    "  dedup:       " ++ (if dedup then "on" else "off"),
    s!"  bitmap at:   block {sb.bitmapStart}",
    s!"  keys at:     block {sb.keysStart}"]
    ++ (if dedup then [s!"  dedup at:    block {sb.dedupStart} ({sb.dedupBlocks} blocks)"] else [])
    ++ [s!"  data at:     block {sb.dataStart}",
      s!"  volume size: {sb.volumeSize.toNat} bytes"])

/-- The usage of the volume on the device at `path`. -/
def usage (path : String) (sb : Superblock) (u : VolumeStats) : String :=
  let used := u.usedBlocks.toNat
  lines ([
    s!"Volume {path}",
    s!"  magic:       0x{hexOfNat 4 sb.magic.toNat}",
    s!"  block size:  {u.blockSize}",
    s!"  blocks:      {u.blockCount}",
    s!"  used:        {used} ({percent used u.blockCount})",
    s!"  free:        {u.freeBlocks}",
    s!"  keys:        {u.keys}",
    s!"  volume size: {u.size} bytes"]
    ++ (match u.dedup with
      | some d => [
        "  dedup:       on",
        s!"    entries:   {d.activeEntries} of {d.capacity} ({d.totalRefs} references)",
        s!"    saved:     {d.bytesSaved} bytes"]
      | none => ["  dedup:       off"]))

/-- The fields of a superblock. -/
def superblockJson (sb : Superblock) : Json :=
  .object [
    ("magic", .number sb.magic.toNat),
    ("superblock_size", .number sb.size.toNat),
    ("freelist_off", .number sb.bitmapOffset.toNat),
    ("inode_off", .number sb.keysOffset.toNat),
    ("data_off", .number sb.dataOffset.toNat),
    ("block_count", .number sb.slots),
    ("flags", .number sb.flags.toNat),
    ("fs_size", .number sb.volumeSize.toNat)]

/-- The usage of a dedup table. -/
def dedupJson (d : DedupStats) : Json :=
  .object [
    ("capacity", .number d.capacity),
    ("active_entries", .number d.activeEntries),
    ("total_refs", .number d.totalRefs),
    ("bytes_saved", .number d.bytesSaved)]

/-- The usage of the volume on the device at `path`. -/
def usageJson (path : String) (sb : Superblock) (u : VolumeStats) : Json :=
  .object [
    ("device", .string path),
    ("superblock", superblockJson sb),
    ("usage", .object [
      ("block_size", .number u.blockSize),
      ("block_count", .number u.blockCount),
      ("free_blocks", .number u.freeBlocks),
      ("used_blocks", .number u.usedBlocks.toNat),
      ("keys", .number u.keys),
      ("fs_size", .number u.size),
      ("dedup", (u.dedup.map dedupJson).getD .null)])]

/-- The numbers that a check found, if any. -/
def numbersLine (name verb : String) (items : List Nat) : List String :=
  if items.isEmpty then []
  else [s!"{name} {verb}: " ++ ", ".intercalate (items.map fun n => toString n)]

/-- The findings of a check. -/
def check (r : CheckReport) : String :=
  let verb := if r.repaired then "fixed" else "found"
  if r.isClean then lines ["clean"]
  else lines (
    numbersLine "leaked slots" verb r.leakedSlots
      ++ numbersLine "unmarked slots" verb r.unmarkedSlots
      ++ numbersLine "invalid key entries" verb r.invalidEntries
      ++ numbersLine "duplicate keys" verb r.duplicateKeys
      ++ numbersLine "dangling pointers" verb r.danglingPointers
      ++ numbersLine "bad dedup entries" verb r.badDedupEntries
      ++ r.refcountFixes.map fun f =>
        s!"refcount {verb}: dedup entry {f.index} recorded {f.recorded}, actual {f.actual}")

/-- Numbers. -/
def numbersJson (items : List Nat) : Json := .array (items.map .number)

/-- The findings of a check. -/
def checkJson (r : CheckReport) : Json :=
  .object [
    ("leaked_slots", numbersJson r.leakedSlots),
    ("unmarked_slots", numbersJson r.unmarkedSlots),
    ("invalid_entries", numbersJson r.invalidEntries),
    ("duplicate_keys", numbersJson r.duplicateKeys),
    ("dangling_pointers", numbersJson r.danglingPointers),
    ("bad_dedup_entries", numbersJson r.badDedupEntries),
    ("refcount_fixes", .array (r.refcountFixes.map fun f =>
      numbersJson [f.index, f.recorded, f.actual])),
    ("repaired", .bool r.repaired)]

/-- A key with what is known of it. -/
def entryLine (key : Key) (info : EntryInfo) : String :=
  let (seconds, nanos) := info.timestamp.toParts
  let refs := (info.sharedRefs.map fun n => toString n).getD "-"
  s!"{key.encode}  slot {rightAligned 6 info.slot}  {seconds}.{zeroPadded 9 nanos}  refs {refs}"

end Report

end BlockStore
