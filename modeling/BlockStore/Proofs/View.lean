import BlockStore.Proofs.Bitmap
import BlockStore.Proofs.Geometry

/-!
# What a volume holds

The image of a volume, read through its superblock: the entry of every slot, the entries of the dedup
table, the bit and the data block of every slot. Every position is total; past the end of a region
stands what an empty volume has there, so no statement about a view carries a bound.

Each write that a volume issues changes one of the four parts at one position, and the lemmas here
are the only place where block numbers, records and bits are computed with. The regions do not
overlap, which is all that `Superblock.Fits` is needed for.

## Main definitions

* `View`: the four parts; `View.setKey`, `setShared`, `setUsed`, `setData` change one position.
* `Superblock.view`: the view of an image.

## Main results

* `Superblock.view_writeKey`, `view_writeShared`, `view_writeUsed`, `view_writeData`: each kind of
  block write is one change of the view.
-/

namespace BlockStore

/-- What a volume holds. -/
structure View where
  /-- The key entry of a slot. -/
  keys : Nat → KeyEntry
  /-- The dedup entry with an index. -/
  shared : Nat → DedupEntry
  /-- The bit of a slot. -/
  used : Nat → Bool
  /-- The data block of a slot. -/
  data : Nat → Block

namespace View

@[ext] theorem ext {v w : View} (hkeys : ∀ s, v.keys s = w.keys s)
    (hshared : ∀ i, v.shared i = w.shared i) (hused : ∀ s, v.used s = w.used s)
    (hdata : ∀ s, v.data s = w.data s) : v = w := by
  cases v
  cases w
  simp only [mk.injEq]
  exact ⟨funext hkeys, funext hshared, funext hused, funext hdata⟩

/-- What an empty volume holds. -/
def blank : View := ⟨fun _ => .free, fun _ => .free, fun _ => false, fun _ => .zero⟩

/-- The view with the key entry of one slot replaced. -/
def setKey (w : View) (s : Nat) (e : KeyEntry) : View :=
  { w with keys := fun t => if t = s then e else w.keys t }

/-- The view with one dedup entry replaced. -/
def setShared (w : View) (i : Nat) (e : DedupEntry) : View :=
  { w with shared := fun j => if j = i then e else w.shared j }

/-- The view with the bit of one slot set or cleared. -/
def setUsed (w : View) (s : Nat) (used : Bool) : View :=
  { w with used := fun t => if t = s then used else w.used t }

/-- The view with the data block of one slot replaced. -/
def setData (w : View) (s : Nat) (b : Block) : View :=
  { w with data := fun t => if t = s then b else w.data t }

/-- The pointer in the data block of a slot. -/
def pointer (w : View) (s : Nat) : Nat := Volume.pointer (w.data s)

variable (w : View) (s i : Nat) (e : KeyEntry) (d : DedupEntry) (u : Bool) (b : Block)

@[simp] theorem keys_setKey (t : Nat) : (w.setKey s e).keys t = if t = s then e else w.keys t := rfl
@[simp] theorem shared_setKey : (w.setKey s e).shared = w.shared := rfl
@[simp] theorem used_setKey : (w.setKey s e).used = w.used := rfl
@[simp] theorem data_setKey : (w.setKey s e).data = w.data := rfl

@[simp] theorem keys_setShared : (w.setShared i d).keys = w.keys := rfl
@[simp] theorem shared_setShared (j : Nat) :
    (w.setShared i d).shared j = if j = i then d else w.shared j := rfl
@[simp] theorem used_setShared : (w.setShared i d).used = w.used := rfl
@[simp] theorem data_setShared : (w.setShared i d).data = w.data := rfl

@[simp] theorem keys_setUsed : (w.setUsed s u).keys = w.keys := rfl
@[simp] theorem shared_setUsed : (w.setUsed s u).shared = w.shared := rfl
@[simp] theorem used_setUsed (t : Nat) :
    (w.setUsed s u).used t = if t = s then u else w.used t := rfl
@[simp] theorem data_setUsed : (w.setUsed s u).data = w.data := rfl

@[simp] theorem keys_setData : (w.setData s b).keys = w.keys := rfl
@[simp] theorem shared_setData : (w.setData s b).shared = w.shared := rfl
@[simp] theorem used_setData : (w.setData s b).used = w.used := rfl
@[simp] theorem data_setData (t : Nat) :
    (w.setData s b).data t = if t = s then b else w.data t := rfl

end View

/-! ### Reading blocks of a changed image -/

namespace Image

theorem read_write_of_disjoint {im : Image} {n count m : Nat} {b : Block}
    (h : m < n ∨ n + count ≤ m) : (im.write m b.bytes).read n count = im.read n count := by
  induction count with
  | zero => rfl
  | succ count ih => rw [read_succ, read_succ, ih (by omega), block_write_bytes, if_neg (by omega)]

theorem size_write_of_le {im : Image} {n : Nat} {b : Block} (h : (n + 1) * blockSize ≤ im.size) :
    (im.write n b.bytes).size = im.size := by
  have hpos : b.bytes.size ≠ 0 := by rw [b.size_eq]; decide
  rw [write, if_neg hpos]
  change max im.size (n * blockSize + b.bytes.size) = im.size
  rw [b.size_eq, ← Nat.succ_mul]
  exact Nat.max_eq_left h

/-- A run of blocks, one of which is written. -/
theorem byteAt_read_write {im : Image} {n count k : Nat} {b : Block} (hk : k < count) (i : Nat) :
    byteAt ((im.write (n + k) b.bytes).read n count) i =
      if k * blockSize ≤ i ∧ i < (k + 1) * blockSize then byteAt b.bytes (i - k * blockSize)
      else byteAt (im.read n count) i := by
  have hkc : (k + 1) * blockSize ≤ count * blockSize := Nat.mul_le_mul_right _ hk
  rw [byteAt_read, byteAt_read, byte_write _ _ ⟨1, by rw [b.size_eq, Nat.mul_one]⟩, b.size_eq]
  rw [Nat.add_mul, Nat.succ_mul] at *
  by_cases hi : i < count * blockSize
  · rw [if_pos hi, if_pos hi]
    by_cases hin : k * blockSize ≤ i ∧ i < k * blockSize + blockSize
    · rw [if_pos hin, if_pos (by omega)]
      congr 1
      omega
    · rw [if_neg hin, if_neg (by omega)]
  · rw [if_neg hi, if_neg hi, if_neg (by omega)]

/-- A row of records after the block that holds one of them is written with that one replaced. -/
theorem record_write (im : Image) (start i j : Nat) (r : Record) :
    ((im.write (start + i / recordsPerBlock)
      ((im.block (start + i / recordsPerBlock)).setRecord (i % recordsPerBlock) r).bytes).block
        (start + j / recordsPerBlock)).record (j % recordsPerBlock) =
      if j = i then r else (im.block (start + j / recordsPerBlock)).record (j % recordsPerBlock) := by
  have hmod (n : Nat) : n % recordsPerBlock < recordsPerBlock := Nat.mod_lt _ (by decide)
  have hsplit : j = i ↔ j / recordsPerBlock = i / recordsPerBlock ∧
      j % recordsPerBlock = i % recordsPerBlock := by
    simp only [show recordsPerBlock = 128 from rfl]
    omega
  rw [block_write_bytes]
  by_cases hblock : j / recordsPerBlock = i / recordsPerBlock
  · rw [hblock, if_pos rfl, Block.record_setRecord _ _ (hmod i) (hmod j)]
    by_cases hrec : i % recordsPerBlock = j % recordsPerBlock
    · rw [if_pos hrec, if_pos (hsplit.2 ⟨hblock, hrec.symm⟩)]
    · rw [if_neg hrec, if_neg fun hji => hrec (hsplit.1 hji).2.symm]
  · rw [if_neg (by omega), if_neg fun hji => hblock (hsplit.1 hji).1]

/-- A bitmap after the block that holds the bit of a slot is written: one bit has changed. -/
theorem read_write_assignSlot (im : Image) {n count s : Nat} (hs : s / 8 < count * blockSize)
    (used : Bool) {b : Block} (hb : b.bytes = (assignSlot (im.read n count) s used).extract
      (s / 8 / blockSize * blockSize) ((s / 8 / blockSize + 1) * blockSize)) :
    (im.write (n + s / 8 / blockSize) b.bytes).read n count =
      assignSlot (im.read n count) s used := by
  have hk : s / 8 / blockSize < count := (Nat.div_lt_iff_lt_mul (by decide)).2 hs
  refine ext_byteAt (by rw [size_assignSlot, size_read, size_read]) ?_
  intro i
  rw [byteAt_read_write hk]
  split
  · rename_i hi
    rw [hb, byteAt_extract, if_pos (by omega), Nat.add_sub_cancel' hi.1]
  · rename_i hi
    refine (byteAt_assignSlot_of_ne used ?_).symm
    rintro rfl
    refine hi ⟨Nat.div_mul_le_self _ _, ?_⟩
    exact Nat.lt_mul_of_div_lt (Nat.lt_succ_self _) (by decide)

end Image

/-! ### The view of an image -/

namespace Superblock

/-- The bitmap on an image, padded to whole blocks. -/
def bitmapOf (sb : Superblock) (im : Image) : ByteArray := im.read sb.bitmapStart sb.bitmapBlocks

@[simp] theorem size_bitmapOf (sb : Superblock) (im : Image) :
    (sb.bitmapOf im).size = Allocator.bitmapSize sb.slots := by
  rw [bitmapOf, Image.size_read, bitmapSize_eq]

/-- What the volume with this superblock holds on an image. -/
def view (sb : Superblock) (im : Image) : View where
  keys s :=
    if s < sb.slots then
      .ofRecord ((im.block (sb.keysStart + s / recordsPerBlock)).record (s % recordsPerBlock))
    else .free
  shared i :=
    if i < sb.dedupCapacity then
      .ofRecord ((im.block (sb.dedupStart + i / recordsPerBlock)).record (i % recordsPerBlock))
    else .free
  used s := decide (s < sb.slots) && testSlot (sb.bitmapOf im) s
  data s := if s < sb.slots then im.block (sb.dataBlock s) else .zero

variable {sb : Superblock} {length : Nat} (im : Image)

theorem view_writeData (h : sb.Fits length) {s : Nat} (hs : s < sb.slots) (b : Block) :
    sb.view (im.write (sb.dataBlock s) b.bytes) = (sb.view im).setData s b := by
  have h1 := h.bitmap_le_keysStart
  have h2 := h.keys_le_dedupStart h.slots_pos
  have h3 := h.dedupStart_le_dataStart
  rw [Nat.zero_div] at h2
  refine View.ext ?_ ?_ ?_ ?_
  · intro t
    by_cases ht : t < sb.slots
    · have := h.keys_le_dedupStart ht
      simp only [view, ht, if_true, View.keys_setData, Image.block_write_bytes, dataBlock]
      rw [if_neg (by omega)]
    · simp [view, ht]
  · intro t
    by_cases ht : t < sb.dedupCapacity
    · have := h.dedup_lt_dataStart ht
      simp only [view, ht, if_true, View.shared_setData, Image.block_write_bytes, dataBlock]
      rw [if_neg (by omega)]
    · simp [view, ht]
  · intro t
    simp only [view, View.used_setData, bitmapOf]
    rw [Image.read_write_of_disjoint (.inr (by rw [dataBlock]; omega))]
  · intro t
    by_cases ht : t < sb.slots
    · simp only [view, ht, if_true, View.data_setData, Image.block_write_bytes, dataBlock]
      by_cases hts : t = s
      · subst hts; simp
      · rw [if_neg (by omega), if_neg hts]
    · simp only [view, ht, if_false, View.data_setData]
      rw [if_neg (by omega)]

/-- The block that holds the entry of a slot, with that entry replaced. -/
theorem view_writeKey (h : sb.Fits length) {s : Nat} (hs : s < sb.slots) (e : KeyEntry) :
    sb.view (im.write (sb.keysStart + s / recordsPerBlock)
      ((im.block (sb.keysStart + s / recordsPerBlock)).setRecord (s % recordsPerBlock)
        e.toRecord).bytes) = (sb.view im).setKey s e := by
  have h1 := h.bitmap_le_keysStart
  have h2 := h.keys_le_dedupStart hs
  have h3 := h.dedupStart_le_dataStart
  have hle (a n : Nat) : a ≤ a + n / recordsPerBlock := Nat.le_add_right _ _
  have hs0 := hle sb.keysStart s
  refine View.ext ?_ ?_ ?_ ?_
  · intro t
    by_cases ht : t < sb.slots
    · simp only [view, ht, if_true, View.keys_setKey, Image.record_write]
      by_cases hts : t = s
      · rw [if_pos hts, if_pos hts, KeyEntry.ofRecord_toRecord]
      · rw [if_neg hts, if_neg hts]
    · simp only [view, ht, if_false, View.keys_setKey]
      rw [if_neg (by omega)]
  · intro t
    by_cases ht : t < sb.dedupCapacity
    · have := hle sb.dedupStart t
      simp only [view, ht, if_true, View.shared_setKey, Image.block_write_bytes]
      rw [if_neg (by omega)]
    · simp [view, ht]
  · intro t
    simp only [view, View.used_setKey, bitmapOf]
    rw [Image.read_write_of_disjoint (.inr (by omega))]
  · intro t
    by_cases ht : t < sb.slots
    · simp only [view, ht, if_true, View.data_setKey, Image.block_write_bytes, dataBlock]
      rw [if_neg (by omega)]
    · simp [view, ht]

/-- The block that holds a dedup entry, with that entry replaced. -/
theorem view_writeShared (h : sb.Fits length) {i : Nat} (hi : i < sb.dedupCapacity)
    (e : DedupEntry) :
    sb.view (im.write (sb.dedupStart + i / recordsPerBlock)
      ((im.block (sb.dedupStart + i / recordsPerBlock)).setRecord (i % recordsPerBlock)
        e.toRecord).bytes) = (sb.view im).setShared i e := by
  have h1 := h.bitmap_le_keysStart
  have h2 := h.dedup_lt_dataStart hi
  have hle (a n : Nat) : a ≤ a + n / recordsPerBlock := Nat.le_add_right _ _
  have hi0 := hle sb.dedupStart i
  refine View.ext ?_ ?_ ?_ ?_
  · intro t
    by_cases ht : t < sb.slots
    · have := h.keys_le_dedupStart ht
      simp only [view, ht, if_true, View.keys_setShared, Image.block_write_bytes]
      rw [if_neg (by omega)]
    · simp [view, ht]
  · intro t
    by_cases ht : t < sb.dedupCapacity
    · simp only [view, ht, if_true, View.shared_setShared, Image.record_write]
      by_cases hts : t = i
      · rw [if_pos hts, if_pos hts, DedupEntry.ofRecord_toRecord]
      · rw [if_neg hts, if_neg hts]
    · simp only [view, ht, if_false, View.shared_setShared]
      rw [if_neg (by omega)]
  · intro t
    simp only [view, View.used_setShared, bitmapOf]
    have := h.keys_le_dedupStart h.slots_pos
    rw [Nat.zero_div] at this
    rw [Image.read_write_of_disjoint (.inr (by omega))]
  · intro t
    by_cases ht : t < sb.slots
    · simp only [view, ht, if_true, View.data_setShared, Image.block_write_bytes, dataBlock]
      rw [if_neg (by omega)]
    · simp [view, ht]

/-- The bitmap after the block that holds the bit of a slot is written: one bit has changed. -/
theorem bitmapOf_write {s : Nat} (hs : s < sb.slots) (used : Bool) {b : Block}
    (hb : b.bytes = (assignSlot (sb.bitmapOf im) s used).extract
      (s / 8 / blockSize * blockSize) ((s / 8 / blockSize + 1) * blockSize)) :
    sb.bitmapOf (im.write (sb.bitmapStart + s / 8 / blockSize) b.bytes) =
      assignSlot (sb.bitmapOf im) s used :=
  im.read_write_assignSlot (sb.bitmapSize_eq ▸ div_lt_bitmapSize hs) used hb

/-- The block of the bitmap that holds the bit of a slot, with that bit set or cleared. -/
theorem view_writeUsed (h : sb.Fits length) {s : Nat} (hs : s < sb.slots) (used : Bool) {b : Block}
    (hb : b.bytes = (assignSlot (sb.bitmapOf im) s used).extract
      (s / 8 / blockSize * blockSize) ((s / 8 / blockSize + 1) * blockSize)) :
    sb.view (im.write (sb.bitmapStart + s / 8 / blockSize) b.bytes) =
      (sb.view im).setUsed s used := by
  have h1 := h.bitmap_le_keysStart
  have h2 := h.keys_le_dedupStart h.slots_pos
  have h3 := h.dedupStart_le_dataStart
  rw [Nat.zero_div] at h2
  have hbyte : s / 8 < (sb.bitmapOf im).size := by
    rw [size_bitmapOf]
    exact div_lt_bitmapSize hs
  have hk : s / 8 / blockSize < sb.bitmapBlocks := by
    rw [size_bitmapOf, bitmapSize_eq] at hbyte
    exact (Nat.div_lt_iff_lt_mul (by decide)).2 hbyte
  refine View.ext ?_ ?_ ?_ ?_
  · intro t
    by_cases ht : t < sb.slots
    · have := Nat.le_add_right sb.keysStart (t / recordsPerBlock)
      simp only [view, ht, if_true, View.keys_setUsed, Image.block_write_bytes]
      rw [if_neg (by omega)]
    · simp [view, ht]
  · intro t
    by_cases ht : t < sb.dedupCapacity
    · have := Nat.le_add_right sb.dedupStart (t / recordsPerBlock)
      simp only [view, ht, if_true, View.shared_setUsed, Image.block_write_bytes]
      rw [if_neg (by omega)]
    · simp [view, ht]
  · intro t
    simp only [view, View.used_setUsed]
    rw [bitmapOf_write im hs used hb, testSlot_assignSlot hbyte]
    by_cases hts : t = s
    · subst hts; simp [hs]
    · simp [hts]
  · intro t
    by_cases ht : t < sb.slots
    · simp only [view, ht, if_true, View.data_setUsed, Image.block_write_bytes, dataBlock]
      rw [if_neg (by omega)]
    · simp [view, ht]

end Superblock

end BlockStore
