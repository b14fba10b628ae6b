import BlockStore.Proofs.Geometry
import Mathlib.Data.List.Chain

/-!
# The regions of a volume

A superblock lays out rows of blocks: itself, the padded bitmap, the key table, the dedup table and the
data blocks. Once it has passed its check they follow one another without meeting, end inside the
device, and hold the block of everything that is looked up in them. The way back from a block number to
the slot that owns it, which is all that stands between a number found on the device and a write, is
the inverse of the way there on the data blocks and leads nowhere from any other block.

## Main definitions

* `Region`: blocks in a row, with `Region.Before` and `Region.Disjoint`.
* `Superblock.regions`: what a superblock lays out.
* `Superblock.Apart`: the regions do not meet, and hold what belongs to them.

## Main results

* `Superblock.Fits.apart`: they do once the superblock has passed its check.
-/

namespace BlockStore

/-- Blocks in a row. -/
structure Region where
  /-- The first block. -/
  first : Nat
  /-- The number of blocks. -/
  count : Nat

namespace Region

/-- The block after the last one. -/
def stop (r : Region) : Nat := r.first + r.count

/-- The block is one of the row. -/
def Holds (r : Region) (block : Nat) : Prop := r.first ≤ block ∧ block < r.stop

/-- One row ends where the other starts, or before. -/
def Before (r s : Region) : Prop := r.stop ≤ s.first

/-- No block is in both rows. -/
def Disjoint (r s : Region) : Prop := ∀ block, r.Holds block → ¬ s.Holds block

theorem Before.trans {r s t : Region} (hrs : r.Before s) (hst : s.Before t) : r.Before t :=
  Nat.le_trans hrs (Nat.le_trans (Nat.le_add_right _ _) hst)

instance : Trans Before Before Before := ⟨Before.trans⟩

theorem Before.disjoint {r s : Region} (h : r.Before s) : r.Disjoint s :=
  fun _ hr hs => Nat.lt_irrefl _ (Nat.lt_of_lt_of_le hr.2 (Nat.le_trans h hs.1))

end Region

namespace Superblock

variable (sb : Superblock)

/-- The padded bitmap. -/
def bitmapRegion : Region := ⟨sb.bitmapStart, sb.bitmapBlocks⟩

/-- The blocks of the key table that hold an entry. -/
def keysRegion : Region := ⟨sb.keysStart, ceilDiv sb.slots recordsPerBlock⟩

/-- The dedup table. -/
def dedupRegion : Region := ⟨sb.dedupStart, sb.dedupBlocks⟩

/-- The blocks that belong to slots. -/
def dataRegion : Region := ⟨sb.dataStart, sb.slots⟩

/-- The regions behind block 0. -/
def inner : List Region := [sb.bitmapRegion, sb.keysRegion, sb.dedupRegion, sb.dataRegion]

/-- All that a volume lays out on its device, block 0 included. -/
def regions : List Region := ⟨0, 1⟩ :: sb.inner

/-- The regions lie apart and hold what belongs to them. -/
structure Apart (sb : Superblock) (length : Nat) : Prop where
  ordered : sb.regions.Pairwise Region.Before
  disjoint : sb.regions.Pairwise Region.Disjoint
  inside : ∀ r ∈ sb.regions, r.stop * blockSize ≤ length
  bitmap : ∀ d : Device, Allocator.read d sb.bitmapOffset.toNat sb.slots =
    match d.read sb.bitmapRegion.first sb.bitmapRegion.count with
    | .ok bytes => .ok (.load sb.bitmapOffset.toNat bytes sb.slots)
    | .error e => .error (.device e)
  bit_held : ∀ s < sb.slots, sb.bitmapRegion.Holds (sb.bitmapStart + s / 8 / blockSize)
  key_held : ∀ s < sb.slots, sb.keysRegion.Holds (sb.keysStart + s / recordsPerBlock)
  entry_held : ∀ i < sb.dedupCapacity, sb.dedupRegion.Holds (sb.dedupStart + i / recordsPerBlock)
  dedup_pos : sb.isDedup → 0 < sb.dedupRegion.count
  data_held : ∀ b, sb.dataRegion.Holds b ↔ ∃ s < sb.slots, b = sb.dataBlock s
  slot_of_data : ∀ s < sb.slots, sb.slotOfBlock (sb.dataBlock s) = some s
  slot_of_other : ∀ b, ¬ sb.dataRegion.Holds b → sb.slotOfBlock b = none

variable {sb : Superblock} {length : Nat}

theorem mem_bitmapRegion {s : Nat} (hs : s < sb.slots) :
    sb.bitmapRegion.Holds (sb.bitmapStart + s / 8 / blockSize) := by
  have hbyte := div_lt_bitmapSize hs
  rw [bitmapSize_eq] at hbyte
  exact ⟨Nat.le_add_right _ _,
    Nat.add_lt_add_left ((Nat.div_lt_iff_lt_mul (by decide)).2 hbyte) _⟩

theorem mem_keysRegion {s : Nat} (hs : s < sb.slots) :
    sb.keysRegion.Holds (sb.keysStart + s / recordsPerBlock) := by
  simp only [Region.Holds, Region.stop, keysRegion, ceilDiv, recordsPerBlock, recordSize, blockSize,
    Nat.reduceDiv]
  omega

theorem mem_dedupRegion {i : Nat} (hi : i < sb.dedupCapacity) :
    sb.dedupRegion.Holds (sb.dedupStart + i / recordsPerBlock) :=
  ⟨Nat.le_add_right _ _, Nat.add_lt_add_left ((Nat.div_lt_iff_lt_mul (by decide)).2 hi) _⟩

theorem mem_dataRegion {b : Nat} :
    sb.dataRegion.Holds b ↔ ∃ s < sb.slots, b = sb.dataBlock s := by
  constructor
  · rintro ⟨hfirst, hstop⟩
    simp only [dataRegion, Region.stop] at hfirst hstop
    exact ⟨b - sb.dataStart, by omega, by rw [dataBlock]; omega⟩
  · rintro ⟨s, hs, rfl⟩
    exact ⟨Nat.le_add_right _ _, Nat.add_lt_add_left hs _⟩

theorem slotOfBlock_eq_none {b : Nat} (hb : ¬ sb.dataRegion.Holds b) : sb.slotOfBlock b = none :=
  if_neg hb

/-- The blocks that hold entries end where the padded key table does. -/
theorem keysRegion_before (h : sb.Fits length) : sb.keysRegion.Before sb.dedupRegion := by
  have hkeys := h.keys_aligned
  simp only [Region.Before, Region.stop, keysRegion, dedupRegion, dedupStart, keysStart, paddedSize,
    ceilDiv, recordsPerBlock, recordSize, blockSize, Nat.reduceDiv] at *
  omega

theorem bitmapRegion_before (h : sb.Fits length) : sb.bitmapRegion.Before sb.keysRegion :=
  h.bitmap_le_keysStart

theorem dedupRegion_before (h : sb.Fits length) : sb.dedupRegion.Before sb.dataRegion :=
  h.dedup_le_dataStart

theorem pairwise_before (h : sb.Fits length) : sb.regions.Pairwise Region.Before := by
  have hsuper : Region.Before ⟨0, 1⟩ sb.bitmapRegion := h.one_le_bitmapStart
  rw [regions, inner, ← List.isChain_iff_pairwise]
  simp only [List.isChain_cons_cons, List.isChain_singleton]
  exact ⟨hsuper, bitmapRegion_before h, keysRegion_before h, dedupRegion_before h, trivial⟩

/-- The data region is the last one, so the others end before it does. -/
theorem stop_le_of_mem (h : sb.Fits length) {r : Region} (hr : r ∈ sb.regions) :
    r.stop ≤ sb.dataRegion.stop := by
  have hpairs : ([⟨0, 1⟩, sb.bitmapRegion, sb.keysRegion, sb.dedupRegion] ++
      [sb.dataRegion]).Pairwise Region.Before := pairwise_before h
  rcases List.mem_append.1 (show r ∈ [_, _, _, _] ++ [sb.dataRegion] from hr) with hr | hr
  · exact Nat.le_trans ((List.pairwise_append.1 hpairs).2.2 r hr _ (List.mem_singleton.2 rfl))
      (Nat.le_add_right _ _)
  · rw [List.mem_singleton.1 hr]

/-- A block of a region lies behind block 0 and before the end of the data. -/
theorem bounds_of_holds (h : sb.Fits length) {r : Region} (hr : r ∈ sb.inner) {n : Nat}
    (hn : r.Holds n) : sb.bitmapStart ≤ n ∧ n < sb.dataStart + sb.slots := by
  have hfirst : sb.bitmapStart ≤ r.first := by
    rcases List.mem_cons.1 hr with rfl | hr
    · exact Nat.le_refl _
    · have hrest := (List.pairwise_cons.1 (List.pairwise_cons.1 (pairwise_before h)).2).1 r hr
      exact Nat.le_trans (Nat.le_add_right _ _) hrest
  exact ⟨Nat.le_trans hfirst hn.1,
    Nat.lt_of_lt_of_le hn.2 (stop_le_of_mem h (List.mem_cons_of_mem _ hr))⟩

/-- A block of a region ends inside the device. -/
theorem end_le_of_holds (h : sb.Fits length) {r : Region} (hr : r ∈ sb.inner) {n : Nat}
    (hn : r.Holds n) : (n + 1) * blockSize ≤ length :=
  Nat.le_trans (Nat.mul_le_mul_right _ (bounds_of_holds h hr hn).2) h.data_le.1

/-- A superblock that passes its check lays out regions that do not meet. -/
theorem Fits.apart (h : sb.Fits length) : sb.Apart length where
  ordered := pairwise_before h
  disjoint := (pairwise_before h).imp Region.Before.disjoint
  inside _ hr := Nat.le_trans (Nat.mul_le_mul_right _ (stop_le_of_mem h hr)) h.data_le.1
  bitmap _ := rfl
  bit_held _ := mem_bitmapRegion
  key_held _ := mem_keysRegion
  entry_held _ := mem_dedupRegion
  dedup_pos hd := Nat.pos_of_ne_zero (h.dedup_room hd)
  data_held _ := mem_dataRegion
  slot_of_data _ := slotOfBlock_dataBlock
  slot_of_other _ := slotOfBlock_eq_none

end Superblock

end BlockStore
