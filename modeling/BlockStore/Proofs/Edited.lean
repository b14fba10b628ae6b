import BlockStore.Proofs.Margin
import BlockStore.Proofs.Primitive

/-!
# The writes of a volume

Whatever a volume holds, however damaged, every write of an operation is one of four edits: a data
block, an entry of the key table, an entry of the dedup table, or a bit with the free list. `Edited` is
the statement that one volume came from another by such edits. It asks nothing of the tables, the bits
or the pointers; only the memory must belong to the device, which it does from the moment on that the
volume is mounted.

## Main definitions

* `Volume.Seated`: the memory of a volume belongs to its device.
* `Volume.Edit`: one write, with the block, the contents and the allocator after it.
* `Volume.Edited`: a volume that came about by edits.

## Main results

* `Volume.Seated.edited`: edits keep a volume seated.
* `Volume.Edited.sameMargin`: they do not reach what lies outside the view.
* `Volume.Edited.log`: each of them writes one block of a region.
-/

namespace BlockStore

namespace Volume

variable {sb : Superblock} {v u t : Volume}

/-- The superblock fits the device, and the allocator is the one of its bitmap; which slots are on the
free list is left open. -/
structure Seated (sb : Superblock) (v : Volume) : Prop where
  superblock : v.superblock = sb
  fits : sb.Fits v.device.size
  start : v.allocator.start = sb.bitmapStart
  slots : v.allocator.slots = sb.slots
  bitmap : v.allocator.bitmap = sb.bitmapOf v.device.image

theorem Shows.seated {r : Prop} {w : View} {free : List Nat} (h : v.Shows sb r w free) :
    v.Seated sb where
  superblock := h.superblock
  fits := h.fits
  start := h.superblock ▸ h.mounted.start
  slots := h.superblock ▸ h.mounted.slots
  bitmap := h.bitmap_eq

/-- A write that a volume may make: the block, its contents, and the allocator afterwards. -/
inductive Edit (sb : Superblock) (v : Volume) : (block : Nat) → Block → Allocator → Prop where
  /-- The data block of a slot. -/
  | data {s : Nat} (hs : s < sb.slots) (b : Block) : Edit sb v (sb.dataBlock s) b v.allocator
  /-- The entry of a slot. -/
  | key {s : Nat} (hs : s < sb.slots) (rec : Record) : Edit sb v (sb.keysStart + s / recordsPerBlock)
      ((v.device.image.block (sb.keysStart + s / recordsPerBlock)).setRecord (s % recordsPerBlock) rec)
      v.allocator
  /-- An entry of the dedup table. -/
  | shared {i : Nat} (hi : i < sb.dedupCapacity) (rec : Record) :
      Edit sb v (sb.dedupStart + i / recordsPerBlock)
        ((v.device.image.block (sb.dedupStart + i / recordsPerBlock)).setRecord (i % recordsPerBlock) rec)
        v.allocator
  /-- The bit of a slot, with any free list. -/
  | bit {s : Nat} (hs : s < sb.slots) (used : Bool) (free : List Nat) :
      Edit sb v (sb.bitmapStart + s / 8 / blockSize)
        (bitmapBlock (assignSlot v.allocator.bitmap s used) s)
        { v.allocator with bitmap := assignSlot v.allocator.bitmap s used, free }

/-- `u` comes from `v` by edits, and by transfers that changed nothing. -/
inductive Edited (sb : Superblock) (v : Volume) : Volume → Prop where
  /-- Nothing has happened. -/
  | refl : Edited sb v v
  /-- A transfer that changed nothing. -/
  | tick {u : Volume} (h : Edited sb v u) : Edited sb v u.tick
  /-- An acknowledged write. -/
  | edit {u : Volume} {n : Nat} {b : Block} {a : Allocator} (h : Edited sb v u)
      (he : Edit sb u n b a) : Edited sb v (u.wrote n b a)

theorem Edited.trans (h : Edited sb v u) (h' : Edited sb u t) : Edited sb v t := by
  induction h' with
  | refl => exact h
  | tick _ ih => exact ih.tick
  | edit _ he ih => exact ih.edit he

/-! ### One edit -/

/-- An edit writes a block of one of the regions. -/
theorem Edit.held {n : Nat} {b : Block} {a : Allocator} (he : Edit sb v n b a) :
    ∃ r ∈ sb.inner, r.Holds n := by
  cases he with
  | data hs => exact ⟨sb.dataRegion, by simp [Superblock.inner], Superblock.mem_dataRegion.2 ⟨_, hs, rfl⟩⟩
  | key hs => exact ⟨sb.keysRegion, by simp [Superblock.inner], Superblock.mem_keysRegion hs⟩
  | shared hi => exact ⟨sb.dedupRegion, by simp [Superblock.inner], Superblock.mem_dedupRegion hi⟩
  | bit hs => exact ⟨sb.bitmapRegion, by simp [Superblock.inner], Superblock.mem_bitmapRegion hs⟩

namespace Seated

theorem tick (h : v.Seated sb) : v.tick.Seated sb := ⟨h.superblock, h.fits, h.start, h.slots, h.bitmap⟩

/-- Every block up to the end of the data lies on the device. -/
theorem holds (h : v.Seated sb) {n : Nat} (hn : n < sb.dataStart + sb.slots) : v.device.Holds n :=
  h.fits.covers hn

/-- The contents of the block that is written for a bit. -/
theorem bytes_bitmapBlock (h : v.Seated sb) {s : Nat} (hs : s < sb.slots) (used : Bool) :
    (bitmapBlock (assignSlot v.allocator.bitmap s used) s).bytes =
      (assignSlot (sb.bitmapOf v.device.image) s used).extract
        (s / 8 / blockSize * blockSize) ((s / 8 / blockSize + 1) * blockSize) := by
  rw [h.bitmap]
  exact bytes_bitmapBlock_bitmapOf sb hs used v.device.image

theorem sameMargin (h : v.Seated sb) {n : Nat} {b : Block} {a : Allocator} (he : Edit sb v n b a) :
    sb.SameMargin v.device.image (v.device.image.write n b.bytes) := by
  cases he with
  | data hs b => exact Superblock.sameMargin_writeData h.fits hs b
  | key hs rec => exact Superblock.sameMargin_writeKey h.fits hs rec
  | @shared i hi rec =>
    exact Superblock.sameMargin_writeShared h.fits hi
      ((v.device.image.block (sb.dedupStart + i / recordsPerBlock)).setRecord (i % recordsPerBlock) rec)
  | bit hs used free => exact Superblock.sameMargin_writeUsed h.fits hs used (h.bytes_bitmapBlock hs used)

/-- A write that leaves the allocator of the bitmap that is then on the device. -/
theorem wrote (h : v.Seated sb) {n : Nat} {b : Block} {bitmap : ByteArray} (free : List Nat)
    (hsize : (v.device.image.write n b.bytes).size = v.device.size)
    (hbitmap : bitmap = sb.bitmapOf (v.device.image.write n b.bytes)) :
    (v.wrote n b { v.allocator with bitmap, free }).Seated sb where
  superblock := h.superblock
  fits := by
    have hfits := h.fits
    rw [← hsize] at hfits
    exact hfits
  start := h.start
  slots := h.slots
  bitmap := hbitmap

theorem edit (h : v.Seated sb) {n : Nat} {b : Block} {a : Allocator} (he : Edit sb v n b a) :
    (v.wrote n b a).Seated sb := by
  have hsize := (h.sameMargin he).size
  have hbehind (hn : sb.keysStart ≤ n) :
      v.allocator.bitmap = sb.bitmapOf (v.device.image.write n b.bytes) :=
    h.bitmap.trans (Superblock.bitmapOf_write_of_le h.fits hn b).symm
  have hshared : sb.keysStart ≤ sb.dedupStart :=
    Nat.le_trans (Nat.le_add_right _ _) (Superblock.keysRegion_before h.fits)
  have hdata : sb.keysStart ≤ sb.dataStart := Nat.le_trans hshared h.fits.dedupStart_le_dataStart
  cases he with
  | data hs b => exact h.wrote _ hsize (hbehind (Nat.le_trans hdata (Nat.le_add_right _ _)))
  | key hs rec => exact h.wrote _ hsize (hbehind (Nat.le_add_right _ _))
  | shared hi rec => exact h.wrote _ hsize (hbehind (Nat.le_trans hshared (Nat.le_add_right _ _)))
  | bit hs used free =>
    refine h.wrote free hsize ?_
    rw [Superblock.bitmapOf_write _ hs used (h.bytes_bitmapBlock hs used), h.bitmap]

/-- Edits keep a volume seated. -/
theorem edited (h : v.Seated sb) (hu : Edited sb v u) : u.Seated sb := by
  induction hu with
  | refl => exact h
  | tick _ ih => exact ih.tick
  | edit _ he ih => exact ih.edit he

end Seated

/-! ### Any number of edits -/

/-- Edits do not reach what lies outside the view. -/
theorem Edited.sameMargin (hu : Edited sb v u) (h : v.Seated sb) :
    sb.SameMargin v.device.image u.device.image := by
  induction hu with
  | refl => exact .refl sb _
  | tick _ ih => exact ih
  | edit hu he ih => exact ih.trans ((h.edited hu).sameMargin he)

/-- The writes that were acknowledged between two states are each one block of a region. -/
theorem Edited.log (hu : Edited sb v u) : ∃ writes : List Write,
    u.device.log.toList = v.device.log.toList ++ writes ∧
      ∀ w ∈ writes, w.count = 1 ∧ ∃ r ∈ sb.inner, r.Holds w.block := by
  induction hu with
  | refl => exact ⟨[], (List.append_nil _).symm, fun w hw => by cases hw⟩
  | tick _ ih => exact ih
  | @edit u n b a _ he ih =>
    obtain ⟨writes, hlog, hheld⟩ := ih
    refine ⟨writes ++ [⟨n, b.bytes⟩], ?_, fun w hw => ?_⟩
    · rw [← List.append_assoc, ← hlog]
      exact Array.toList_push
    · rcases List.mem_append.1 hw with hw | hw
      · exact hheld w hw
      · obtain rfl := List.mem_singleton.1 hw
        exact ⟨by rw [Write.count, b.size_eq, Nat.div_self (by decide)], he.held⟩

end Volume

end BlockStore
