import BlockStore.Record

/-!
# The dedup table

On a deduplicating volume values with equal contents share one block. The dedup table maps a
content key to that block and counts the references to it; a block whose last reference is dropped
has its entry freed, and the caller then gives the block back.

Entries are found by scanning, block by block and no further than is needed. A sound table holds at
most one active entry for each content and for each block, and no active entry without references.

## Main definitions

* `DedupEntry`: an entry; `DedupEntry.encode`, `DedupEntry.decode` its 32 bytes.
* `DedupTable.entries`: every entry by index, with one error for each block that cannot be read.
* `DedupTable.locate`: the first entry that meets a `Criterion`, and the first free one before it.
* `DedupTable.share`, `DedupTable.unref`: one more reference to a content, one less to a block.
* `DedupTable.stats`: the usage of the table.

## Main statements

* `DedupTable.locate_eq_locateIn`, `DedupTable.stats_eq_countRefs`: both are functions of `entries`.
-/

namespace BlockStore

/-- An entry of the dedup table. -/
structure DedupEntry where
  /-- The content key, zero in a free entry. -/
  key : Key
  /-- Bit 4 is set in active entries and bit 0 in free ones. -/
  flags : UInt16
  /-- References to the block. -/
  refCount : UInt16
  /-- The device block with the content. -/
  blockPtr : UInt64
deriving DecidableEq

namespace DedupEntry

/-- The flag written to free entries. -/
def freeFlag : UInt16 := 0x0001

/-- The flag of active entries. -/
def activeFlag : UInt16 := 0x0010

/-- The entry that holds no content. -/
def free : DedupEntry := ⟨.zero, freeFlag, 0, 0⟩

/-- The active flag is set. -/
def isActive (e : DedupEntry) : Bool := e.flags &&& activeFlag != 0

/-- The active flag is clear: this alone makes an entry free. -/
def isFree (e : DedupEntry) : Bool := !e.isActive

/-- The number of the block with the content. -/
def block (e : DedupEntry) : Nat := e.blockPtr.toNat

/-- The record of an entry. -/
def toRecord (e : DedupEntry) : Record := ⟨e.key, e.flags, e.refCount, e.blockPtr⟩

/-- The entry in a record. -/
def ofRecord (r : Record) : DedupEntry := ⟨r.key, r.flags, r.refCount, r.word⟩

@[simp] theorem ofRecord_toRecord (e : DedupEntry) : ofRecord e.toRecord = e := rfl

@[simp] theorem toRecord_ofRecord (r : Record) : (ofRecord r).toRecord = r := rfl

/-- The 32 bytes of an entry. -/
def encode (e : DedupEntry) : ByteArray := e.toRecord.encode

/-- The entry in the first 32 bytes of `b`. -/
def decode (b : ByteArray) : DedupEntry := ofRecord (.decode b 0)

end DedupEntry

/-- What a scan of the dedup table looks for among the active entries. -/
inductive Criterion where
  /-- The entry of a content. -/
  | content (k : Key)
  /-- The entry of a block. -/
  | block (n : Nat)
deriving DecidableEq

/-- The entry is active and is the one looked for. -/
def Criterion.accepts (c : Criterion) (e : DedupEntry) : Bool :=
  e.isActive &&
    match c with
    | .content k => e.key == k
    | .block n => e.block == n

/-- What a scan of the dedup table found. -/
structure Located where
  /-- The first entry that was looked for, with its index. -/
  found : Option (Nat × DedupEntry)
  /-- The index of the first free entry met before the scan ended. -/
  firstFree : Option Nat
deriving DecidableEq

/-- Usage of the dedup table. -/
structure DedupStats where
  /-- The number of entries. -/
  capacity : Nat
  /-- The number of shared blocks. -/
  activeEntries : Nat
  /-- The references to them. -/
  totalRefs : Nat
  /-- The bytes that storing every reference apart would take besides. -/
  bytesSaved : Nat
deriving DecidableEq

/-- A dedup table on a device. -/
structure DedupTable where
  /-- The first block. -/
  start : Nat
  /-- The number of blocks. -/
  blocks : Nat
deriving DecidableEq

namespace DedupTable

/-- The number of entries. -/
def capacity (t : DedupTable) : Nat := t.blocks * recordsPerBlock

/-- The row of records that holds the table. -/
def records (t : DedupTable) : RecordTable := ⟨t.start⟩

/-- The entry with an index. -/
def entry (t : DedupTable) (d : Device) (i : Nat) : Except StoreError DedupEntry := do
  return .ofRecord (← t.records.read d i)

/-- Replaces the entry with an index. -/
def writeEntry (t : DedupTable) (i : Nat) (e : DedupEntry) : DeviceM Unit :=
  t.records.write i e.toRecord

/-- The entries in block number `k` of the table, or the error of reading it. -/
def entriesIn (t : DedupTable) (d : Device) (k : Nat) :
    List (Except StoreError (Nat × DedupEntry)) :=
  match d.readBlock (t.start + k) with
  | .error e => [.error e]
  | .ok b =>
    (RecordTable.recordsIn b k recordsPerBlock).map fun (i, r) => .ok (i, .ofRecord r)

/-- Every entry with its index, in order. A block that cannot be read leaves one error in the place
of its entries. -/
def entries (t : DedupTable) (d : Device) : List (Except StoreError (Nat × DedupEntry)) :=
  (List.range t.blocks).flatMap (t.entriesIn d)

/-- The outcome of scanning a list for an entry, when `free` is the first free one met so far. -/
def locateIn (c : Criterion) : List (Except StoreError (Nat × DedupEntry)) → (free : Option Nat) →
    Except StoreError Located
  | [], free => .ok ⟨none, free⟩
  | .error e :: _, _ => .error e
  | .ok (i, e) :: rest, free =>
    if c.accepts e then .ok ⟨some (i, e), free⟩
    else locateIn c rest (if free.isNone && e.isFree then some i else free)

/-- The outcome of scanning `n` blocks of the table, of which `k` is the number of the first, when
`free` is the first free entry met so far. No block is read after the outcome is known. -/
def locateFrom (t : DedupTable) (d : Device) (c : Criterion) : (n k : Nat) → (free : Option Nat) →
    Except StoreError Located
  | 0, _, free => .ok ⟨none, free⟩
  | n + 1, k, free =>
    match locateIn c (t.entriesIn d k) free with
    | .ok ⟨none, free⟩ => t.locateFrom d c n (k + 1) free
    | outcome => outcome

/-- Scans the table in order, up to the first entry that is looked for. -/
def locate (t : DedupTable) (d : Device) (c : Criterion) : Except StoreError Located :=
  t.locateFrom d c t.blocks 0 none

theorem locateIn_append (c : Criterion) (xs ys : List (Except StoreError (Nat × DedupEntry)))
    (free : Option Nat) :
    locateIn c (xs ++ ys) free =
      match locateIn c xs free with
      | .ok ⟨none, free⟩ => locateIn c ys free
      | outcome => outcome := by
  induction xs generalizing free with
  | nil => rfl
  | cons x xs ih =>
    cases x with
    | error e => rfl
    | ok item =>
      obtain ⟨i, e⟩ := item
      by_cases h : c.accepts e = true <;> simp [locateIn, h, ih]

theorem locateFrom_eq_locateIn (t : DedupTable) (d : Device) (c : Criterion) (n k : Nat)
    (free : Option Nat) :
    t.locateFrom d c n k free = locateIn c ((List.range' k n).flatMap (t.entriesIn d)) free := by
  induction n generalizing k free with
  | zero => rfl
  | succ n ih => simp [locateFrom, List.range'_succ, locateIn_append, ih]

/-- Scanning block by block finds what scanning all entries finds. -/
theorem locate_eq_locateIn (t : DedupTable) (d : Device) (c : Criterion) :
    t.locate d c = locateIn c (t.entries d) none := by
  simp [locate, entries, locateFrom_eq_locateIn, List.range_eq_range']

/-- Takes one more reference to a content: to the block the table has for it, or else to the
`candidate`, which the caller has filled with it. The block that now holds the content is returned;
if it is not the candidate, the candidate has no reference. -/
def share (t : DedupTable) (content : Key) (candidate : Nat) : DeviceM Nat := do
  let located ← Device.look (t.locate · (.content content))
  match located.found with
  | some (i, e) =>
    if e.refCount.toNat + 1 < 1 <<< 16 then
      t.writeEntry i { e with refCount := e.refCount + 1 }
      return e.block
    else
      throw (.refcountSaturated e.block)
  | none =>
    match located.firstFree with
    | some i =>
      t.writeEntry i ⟨content, DedupEntry.activeFlag, 1, UInt64.ofNat candidate⟩
      return candidate
    | none => throw .tableFull

/-- Drops one reference to a block and returns the number left. With the last one the entry becomes
free; the block itself is left to the caller. -/
def unref (t : DedupTable) (block : Nat) : DeviceM Nat := do
  let located ← Device.look (t.locate · (.block block))
  match located.found with
  | some (i, e) =>
    let left := e.refCount.toNat - 1
    t.writeEntry i (if left = 0 then .free else { e with refCount := UInt16.ofNat left })
    return left
  | none => throw (.notFound (.dedupEntry block))

/-- Counts the active entries of a list and their references. -/
def countRefs : List (Except StoreError (Nat × DedupEntry)) → Except StoreError (Nat × Nat)
  | [] => .ok (0, 0)
  | .error e :: _ => .error e
  | .ok (_, e) :: rest => do
    let (active, refs) ← countRefs rest
    return if e.isActive then (active + 1, refs + e.refCount.toNat) else (active, refs)

/-- Counts the active entries and their references in `n` blocks of the table, of which `k` is the
number of the first. -/
def countFrom (t : DedupTable) (d : Device) : (n k : Nat) → Except StoreError (Nat × Nat)
  | 0, _ => .ok (0, 0)
  | n + 1, k => do
    let (active, refs) ← countRefs (t.entriesIn d k)
    let (moreActive, moreRefs) ← t.countFrom d n (k + 1)
    return (active + moreActive, refs + moreRefs)

theorem countRefs_append (xs ys : List (Except StoreError (Nat × DedupEntry))) :
    countRefs (xs ++ ys) = do
      let (active, refs) ← countRefs xs
      let (moreActive, moreRefs) ← countRefs ys
      return (active + moreActive, refs + moreRefs) := by
  induction xs with
  | nil =>
    cases h : countRefs ys <;> simp [countRefs, h, bind, Except.bind, pure, Except.pure]
  | cons x xs ih =>
    cases x with
    | error e => rfl
    | ok item =>
      obtain ⟨i, e⟩ := item
      simp only [List.cons_append, countRefs, ih]
      cases countRefs xs with
      | error e => rfl
      | ok counted =>
        cases countRefs ys with
        | error e => rfl
        | ok more =>
          cases h : e.isActive with
          | false => simp [bind, Except.bind, pure, Except.pure]
          | true =>
            simp only [bind, Except.bind, pure, Except.pure, if_true, Except.ok.injEq,
              Prod.mk.injEq]
            omega

theorem countFrom_eq_countRefs (t : DedupTable) (d : Device) (n k : Nat) :
    t.countFrom d n k = countRefs ((List.range' k n).flatMap (t.entriesIn d)) := by
  induction n generalizing k with
  | zero => rfl
  | succ n ih => simp [countFrom, List.range'_succ, countRefs_append, ih]

/-- Usage of the table. -/
def stats (t : DedupTable) (d : Device) : Except StoreError DedupStats := do
  let (active, refs) ← t.countFrom d t.blocks 0
  return ⟨t.capacity, active, refs, (refs - active) * blockSize⟩

/-- Counting block by block counts all entries. -/
theorem stats_eq_countRefs (t : DedupTable) (d : Device) :
    t.stats d = do
      let (active, refs) ← countRefs (t.entries d)
      return ⟨t.capacity, active, refs, (refs - active) * blockSize⟩ := by
  simp [stats, entries, countFrom_eq_countRefs, List.range_eq_range']

end DedupTable

end BlockStore
