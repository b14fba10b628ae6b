import BlockStore.Volume.Update

/-!
# Consistency

The check finds out from the key table and the dedup table which slots are really referenced, and
compares that with the bitmap and the recorded reference counts. With repair it corrects whatever
disagrees, and a repaired volume is consistent.

It goes through these stages in order: the key entries are classified; the dedup entries are
accepted or rejected; the pointers of the logical slots are counted; reference counts are compared;
rejected dedup entries, and then entries of bad slots, are freed; and the bitmap is compared last.

## Main definitions

* `CheckReport`: the findings.
* `SlotRole`, `classify`: what the entry of each slot amounts to.
* `SharedBlock`, `acceptEntries`: the dedup entries that may be kept.
* `Volume.checkVisiting`, `Volume.check`: the check, with the order in which reference counts are
  compared left open, and in the order of the table.
-/

namespace BlockStore

/-- A reference count that is not the number of references. -/
structure RefcountFix where
  /-- Index of the dedup entry. -/
  index : Nat
  /-- The count in the entry. -/
  recorded : Nat
  /-- The number of pointers to its block. -/
  actual : Nat
deriving DecidableEq

/-- What a check found. -/
structure CheckReport where
  /-- Slots in use that nothing references. -/
  leakedSlots : List Nat
  /-- Referenced slots whose bit is clear. -/
  unmarkedSlots : List Nat
  /-- Slots whose entry is neither active nor free. -/
  invalidEntries : List Nat
  /-- Active slots with a key that a lower slot holds. -/
  duplicateKeys : List Nat
  /-- Logical slots that point at a block without a dedup entry. -/
  danglingPointers : List Nat
  /-- Dedup entries that cannot hold the block they point at. -/
  badDedupEntries : List Nat
  /-- Wrong reference counts, by index. -/
  refcountFixes : List RefcountFix
  /-- The findings were repaired. -/
  repaired : Bool
deriving DecidableEq

namespace CheckReport

/-- The number of findings. -/
def problemCount (r : CheckReport) : Nat :=
  r.leakedSlots.length + r.unmarkedSlots.length + r.invalidEntries.length +
    r.duplicateKeys.length + r.danglingPointers.length + r.badDedupEntries.length +
    r.refcountFixes.length

/-- There are no findings. -/
def isClean (r : CheckReport) : Bool :=
  r.leakedSlots.isEmpty && r.unmarkedSlots.isEmpty && r.invalidEntries.isEmpty &&
    r.duplicateKeys.isEmpty && r.danglingPointers.isEmpty && r.badDedupEntries.isEmpty &&
    r.refcountFixes.isEmpty

end CheckReport

/-- What the entry of a slot amounts to. -/
inductive SlotRole where
  /-- Neither active nor free. -/
  | invalid
  /-- Active, with a key that a lower slot holds. -/
  | duplicate
  /-- The first active entry of its key. -/
  | logical
  /-- Free. -/
  | vacant
deriving DecidableEq

namespace SlotRole

/-- The entry has to go. -/
def isDiscarded : SlotRole → Bool
  | invalid | duplicate => true
  | logical | vacant => false

end SlotRole

/-- The role of each slot, when `seen` are the keys met before. -/
def classify (seen : List Key) : List (Nat × KeyEntry) → List (Nat × SlotRole)
  | [] => []
  | (slot, e) :: rest =>
    if !e.isValid then (slot, .invalid) :: classify seen rest
    else if !e.isActive then (slot, .vacant) :: classify seen rest
    else if e.key ∈ seen then (slot, .duplicate) :: classify seen rest
    else (slot, .logical) :: classify (e.key :: seen) rest

/-- The slots of a list whose role passes a test. -/
def slotsWhere (p : SlotRole → Bool) (roles : List (Nat × SlotRole)) : List Nat :=
  (roles.filter fun (_, role) => p role).map Prod.fst

/-- A block that an accepted dedup entry holds. -/
structure SharedBlock where
  /-- The block. -/
  block : Nat
  /-- The slot that owns it. -/
  slot : Nat
  /-- Index of the entry. -/
  index : Nat
  /-- Content key of the entry. -/
  content : Key
  /-- Recorded reference count. -/
  recorded : Nat
deriving DecidableEq

/-- Whether an active dedup entry can be accepted after others: its block must belong to a slot that
is not logical, and neither its block nor its content may be taken. -/
def accept? (sb : Superblock) (logical : List Nat) (accepted : List SharedBlock) (index : Nat)
    (e : DedupEntry) : Option SharedBlock :=
  match sb.slotOfBlock e.block with
  | none => none
  | some slot =>
    if slot ∈ logical ∨ e.block ∈ accepted.map (·.block) ∨ e.key ∈ accepted.map (·.content) then
      none
    else some ⟨e.block, slot, index, e.key, e.refCount.toNat⟩

/-- Goes through the entries of a dedup table: the blocks of the accepted entries added to those
`accepted` before, and the indices of the active entries rejected. -/
def acceptEntries (sb : Superblock) (logical : List Nat) (accepted : List SharedBlock) :
    List (Nat × DedupEntry) → List SharedBlock × List Nat
  | [] => (accepted, [])
  | (index, e) :: rest =>
    if e.isActive then
      match accept? sb logical accepted index e with
      | some shared => acceptEntries sb logical (accepted ++ [shared]) rest
      | none =>
        let (blocks, bad) := acceptEntries sb logical accepted rest
        (blocks, index :: bad)
    else acceptEntries sb logical accepted rest

/-- The number of references to a block among pointers, as far as it can be counted. -/
def refsTo (pointers : List Nat) (block : Nat) : Nat := min (pointers.count block) ((1 <<< 16) - 1)

namespace Volume

/-- Reads the pointers of logical slots. Returns those that lead to one of the `blocks`, and the
slots of the others, whose pointer is cleared in a repair. -/
def checkPointers (repair : Bool) (blocks : List Nat) : List Nat → VolumeM (List Nat × List Nat)
  | [] => return ([], [])
  | slot :: rest => do
    let pointer ← look (·.readPointer slot)
    if pointer = 0 then
      checkPointers repair blocks rest
    else if pointer ∈ blocks then
      let (pointers, dangling) ← checkPointers repair blocks rest
      return (pointer :: pointers, dangling)
    else
      if repair then
        writePointer slot 0
      let (pointers, dangling) ← checkPointers repair blocks rest
      return (pointers, slot :: dangling)

/-- Compares recorded reference counts with the `pointers`. A repair corrects a wrong count, and
frees an entry without references. -/
def checkCounts (repair : Bool) (table : DedupTable) (pointers : List Nat) :
    List SharedBlock → VolumeM (List RefcountFix)
  | [] => return []
  | shared :: rest => do
    let actual := refsTo pointers shared.block
    if actual = shared.recorded then
      checkCounts repair table pointers rest
    else
      if repair then
        let e ← look fun v => table.entry v.device shared.index
        onDevice (table.writeEntry shared.index
          (if actual = 0 then .free else { e with refCount := UInt16.ofNat actual }))
      let fixes ← checkCounts repair table pointers rest
      return ⟨shared.index, shared.recorded, actual⟩ :: fixes

/-- Frees dedup entries. -/
def freeDedupEntries (table : DedupTable) : List Nat → VolumeM Unit
  | [] => return
  | index :: rest => do
    onDevice (table.writeEntry index .free)
    freeDedupEntries table rest

/-- What the check of the dedup table found. -/
structure SharedFindings where
  /-- Slots of the blocks that stay referenced. -/
  kept : List Nat
  /-- Logical slots that point at a block without an entry. -/
  dangling : List Nat
  /-- Wrong reference counts. -/
  fixes : List RefcountFix
  /-- Rejected entries. -/
  bad : List Nat

/-- Checks the dedup table against the logical slots. The reference counts are compared in the order
that `visit` puts the accepted blocks in. -/
def checkShared (visit : List SharedBlock → List SharedBlock) (repair : Bool) (table : DedupTable)
    (logical : List Nat) : VolumeM SharedFindings := do
  let entries ← look fun v => collect (table.entries v.device)
  let (blocks, bad) := acceptEntries (← get).superblock logical [] entries
  let (pointers, dangling) ← checkPointers repair (blocks.map (·.block)) logical
  let fixes ← checkCounts repair table pointers (visit blocks)
  if repair then
    freeDedupEntries table bad
  return {
    kept := (blocks.filter fun s => refsTo pointers s.block ≠ 0).map (·.slot)
    dangling
    fixes := fixes.mergeSort fun a b => a.index ≤ b.index
    bad }

/-- Frees the entries of discarded slots, and zeroes the data block of those that nothing else
references. -/
def discardEntries (referenced : List Nat) : List Nat → VolumeM Unit
  | [] => return
  | slot :: rest => do
    let keys := (← get).keyTable
    onDevice (keys.writeEntry slot .free)
    if slot ∉ referenced then
      writeData slot .zero
    discardEntries referenced rest

/-- Compares the bits of slots with what is referenced. Returns the slots in use without reference,
which a repair reclaims, and the referenced ones not in use, which a repair marks. -/
def checkBitmap (repair : Bool) (referenced : List Nat) : List Nat → VolumeM (List Nat × List Nat)
  | [] => return ([], [])
  | slot :: rest => do
    let used := (← get).allocator.isUsed slot
    if used ∧ slot ∉ referenced then
      if repair then
        reclaim slot
      let (leaked, unmarked) ← checkBitmap repair referenced rest
      return (slot :: leaked, unmarked)
    else if ¬ used ∧ slot ∈ referenced then
      if repair then
        markUsed slot
      let (leaked, unmarked) ← checkBitmap repair referenced rest
      return (leaked, slot :: unmarked)
    else
      checkBitmap repair referenced rest

/-- Checks the volume, and repairs it if asked to, comparing reference counts in the order that
`visit` puts the shared blocks in. -/
def checkVisiting (visit : List SharedBlock → List SharedBlock) (repair : Bool) :
    VolumeM CheckReport := do
  let entries ← look fun v => collect (v.keyTable.entries v.device)
  let roles := classify [] entries
  let logical := slotsWhere (· = .logical) roles
  let shared ← match (← get).dedupTable with
    | none => pure ⟨[], [], [], []⟩
    | some table => checkShared visit repair table logical
  let referenced := logical ++ shared.kept
  if repair then
    discardEntries referenced (slotsWhere SlotRole.isDiscarded roles)
  let (leaked, unmarked) ← checkBitmap repair referenced (List.range (← get).superblock.slots)
  return {
    leakedSlots := leaked
    unmarkedSlots := unmarked
    invalidEntries := slotsWhere (· = .invalid) roles
    duplicateKeys := slotsWhere (· = .duplicate) roles
    danglingPointers := shared.dangling
    badDedupEntries := shared.bad
    refcountFixes := shared.fixes
    repaired := repair }

/-- Checks the volume, and repairs it if asked to. -/
def check (repair : Bool) : VolumeM CheckReport := checkVisiting id repair

end Volume

end BlockStore
