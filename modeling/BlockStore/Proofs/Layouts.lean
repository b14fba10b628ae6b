import BlockStore.Proofs.Format
import BlockStore.Proofs.WordGeometry
import Mathlib.Algebra.GroupWithZero.Nat

/-!
# Layouts

A volume takes a sum of four amounts that are rounded up in different ways. The sum grows with the
number of slots, which is what the search for the largest volume on a device stands on, and it is also
where the last region of the superblock of a layout ends: the offsets in it are sums of the same amounts,
and from the offsets the regions are worked out once more.

Both are done in 64-bit words. As for the check of a superblock, the computation in words has no result
where it would leave 64 bits. The search in words ends because a round of it, if it has a result, leaves
less of the range.

## Main definitions

* `Layout.totalSize?`, `halve?`, `bisect?`, `forDevice?`, `superblock?`: in words.
* `Layout.Brackets`: where the search has got to.
* `Layout.LargestFor`: no larger layout fits.
* `Region.endToEnd`: regions of given lengths, each behind the one before.
* `Layout.Tiles`: a superblock lays the regions of a layout end to end.

## Main results

* `Layout.totalSize_mono`: the size grows with the number of slots.
* `Layout.halve?_shrinks`: a round of the search leaves less of the range.
* `Layout.forDevice_largest`: the search ends, at the largest layout.
* `Layout.tiles_superblock`: the superblock of every layout.
-/

namespace BlockStore

open Word

namespace Region

/-- One row starts where the other ends. -/
def Adjoins (r s : Region) : Prop := r.stop = s.first

/-- Rows of so many blocks, each behind the one before. -/
def endToEnd (first : Nat) : List Nat → List Region
  | [] => []
  | count :: counts => ⟨first, count⟩ :: endToEnd (first + count) counts

theorem isChain_endToEnd (counts : List Nat) (first : Nat) : (endToEnd first counts).IsChain Adjoins := by
  induction counts generalizing first with
  | nil => exact List.IsChain.nil
  | cons count counts ih =>
    cases counts with
    | nil => exact List.isChain_singleton _
    | cons next counts => exact List.isChain_cons_cons.2 ⟨rfl, ih _⟩

end Region

namespace Layout

variable {length low high m n : Nat} {dedup : Bool} {l : Layout}

/-! ### The size of a volume -/

theorem ceilDiv_mono {b : Nat} (h : m ≤ n) : ceilDiv m b ≤ ceilDiv n b :=
  Nat.div_le_div_right (Nat.sub_le_sub_right (Nat.add_le_add_right h b) 1)

theorem paddedSize_mono (h : m ≤ n) : paddedSize m ≤ paddedSize n :=
  Nat.mul_le_mul_right _ (ceilDiv_mono h)

theorem dedupBlocksFor_mono (h : m ≤ n) : dedupBlocksFor m dedup ≤ dedupBlocksFor n dedup := by
  rw [dedupBlocksFor, dedupBlocksFor]
  split
  · exact ceilDiv_mono h
  · exact Nat.le_refl _

/-- Each of the four amounts grows with the number of slots, however it is rounded. -/
theorem totalSize_mono (h : m ≤ n) : totalSize m dedup ≤ totalSize n dedup := by
  have hbitmap : paddedSize (ceilDiv m 8) ≤ paddedSize (ceilDiv n 8) := paddedSize_mono (ceilDiv_mono h)
  have hkeys : paddedSize (m * recordSize) ≤ paddedSize (n * recordSize) :=
    paddedSize_mono (Nat.mul_le_mul_right _ h)
  have htable : dedupBlocksFor m dedup * blockSize ≤ dedupBlocksFor n dedup * blockSize :=
    Nat.mul_le_mul_right _ (dedupBlocksFor_mono h)
  have hdata : m * blockSize ≤ n * blockSize := Nat.mul_le_mul_right _ h
  simp only [totalSize]
  omega

theorem mul_blockSize_le_totalSize (n : Nat) (dedup : Bool) : n * blockSize ≤ totalSize n dedup :=
  Nat.le_add_left _ _

/-- The layout with a number of slots that is in range. -/
theorem forBlocks_eq_ok (hpos : 0 < n) (hle : n ≤ Superblock.maxBlocks) (dedup : Bool) :
    forBlocks n dedup = .ok ⟨n, dedup, hpos, hle⟩ := dif_pos ⟨hpos, hle⟩

theorem totalSize_lt (hle : n ≤ Superblock.maxBlocks) (dedup : Bool) : totalSize n dedup < 2 ^ 64 :=
  Nat.lt_of_le_of_lt (totalSize_mono hle) (size_lt ⟨Superblock.maxBlocks, dedup, by decide, Nat.le_refl _⟩)

/-! ### The search for the largest layout -/

/-- The greatest number of slots that fits in `length` bytes, among those that a volume may have, is one
from `low` to `high`. -/
structure Brackets (length : Nat) (dedup : Bool) (low high : Nat) : Prop where
  pos : 0 < low
  le : low ≤ high
  bounded : high ≤ Superblock.maxBlocks
  fits : totalSize low dedup ≤ length
  above : ∀ n, high < n → n ≤ Superblock.maxBlocks → length < totalSize n dedup

/-- The middle of the range, rounded up so that it is above `low`. -/
def middle (low high : Nat) : Nat := low + (high - low + 1) / 2

theorem lt_middle (h : low < high) : low < middle low high := by
  rw [middle]
  omega

theorem middle_le (h : low < high) : middle low high ≤ high := by
  rw [middle]
  omega

namespace Brackets

theorem raise (h : Brackets length dedup low high) (hlt : low < high)
    (hfits : totalSize (middle low high) dedup ≤ length) :
    Brackets length dedup (middle low high) high :=
  ⟨Nat.zero_lt_of_lt (lt_middle hlt), middle_le hlt, h.bounded, hfits, h.above⟩

theorem lower (h : Brackets length dedup low high) (hlt : low < high)
    (hno : ¬ totalSize (middle low high) dedup ≤ length) :
    Brackets length dedup low (middle low high - 1) where
  pos := h.pos
  le := Nat.le_sub_one_of_lt (lt_middle hlt)
  bounded := Nat.le_trans (Nat.sub_le _ 1) (Nat.le_trans (middle_le hlt) h.bounded)
  fits := h.fits
  above n hn _ := by
    have hle : middle low high ≤ n := by omega
    exact Nat.lt_of_lt_of_le (Nat.not_le.1 hno) (totalSize_mono hle)

/-- The search ends where the range has one number left. -/
theorem bisect (h : Brackets length dedup low high) :
    Brackets length dedup (bisect length dedup low high) (Layout.bisect length dedup low high) := by
  induction low, high using Layout.bisect.induct length dedup with
  | case1 low high hlt mid hfits ih =>
    rw [Layout.bisect, if_pos hlt, if_pos hfits]
    exact ih (h.raise hlt hfits)
  | case2 low high hlt mid hno ih =>
    rw [Layout.bisect, if_pos hlt, if_neg hno]
    exact ih (h.lower hlt hno)
  | case3 low high hstop =>
    rw [Layout.bisect, if_neg hstop]
    obtain rfl : low = high := Nat.le_antisymm h.le (Nat.not_lt.1 hstop)
    exact h

/-- Before the search every number that comes into question is in the range. -/
theorem start (h : totalSize 1 dedup ≤ length) :
    Brackets length dedup 1 (min (length / blockSize) Superblock.maxBlocks) where
  pos := Nat.one_pos
  le := by
    have hone : 1 ≤ length / blockSize :=
      (Nat.le_div_iff_mul_le (by decide)).2 (Nat.le_trans (mul_blockSize_le_totalSize 1 dedup) h)
    exact Nat.le_min.2 ⟨hone, by decide⟩
  bounded := Nat.min_le_right _ _
  fits := h
  above n hn hle := by
    have hn : length / blockSize < n := by omega
    exact Nat.lt_of_lt_of_le ((Nat.div_lt_iff_lt_mul (by decide)).1 hn) (mul_blockSize_le_totalSize n dedup)

end Brackets

/-- The layout fits, and none with more slots does. -/
structure LargestFor (l : Layout) (length : Nat) : Prop where
  fits : l.size ≤ length
  largest : ∀ n, l.slots < n → n ≤ Superblock.maxBlocks → length < totalSize n l.dedup

/-- Where a volume of one slot fits, the largest layout that does is found. -/
theorem exists_forDevice (h : totalSize 1 dedup ≤ length) :
    ∃ l, forDevice length dedup = .ok l ∧ l.dedup = dedup ∧ l.LargestFor length := by
  have hdone := (Brackets.start h).bisect
  refine ⟨⟨_, dedup, hdone.pos, hdone.bounded⟩, ?_, rfl, hdone.fits, hdone.above⟩
  rw [forDevice, if_pos h, forBlocks_eq_ok hdone.pos hdone.bounded]

/-! ### In words -/

/-- Blocks of the dedup table of a volume with `n` slots. -/
def dedupBlocksFor? (n : UInt64) (dedup : Bool) : Option UInt64 :=
  if dedup then ceilDiv? n (.ofNat recordsPerBlock) else some 0

/-- Bytes that a volume with `n` slots takes. -/
def totalSize? (n : UInt64) (dedup : Bool) : Option UInt64 := do
  let table ← mul? (← dedupBlocksFor? n dedup) (.ofNat blockSize)
  let bitmap ← padded? (← ceilDiv? n 8)
  let keys ← padded? (← mul? n (.ofNat recordSize))
  let data ← mul? n (.ofNat blockSize)
  add? (← add? (← add? (← add? (.ofNat blockSize) bitmap) keys) table) data

/-- The middle of a range, rounded up. -/
def middle? (low high : UInt64) : Option UInt64 := do add? low ((← add? (← sub? high low) 1) / 2)

theorem toNat_of_middle? {low high mid : UInt64} (h : middle? low high = some mid) :
    mid.toNat = middle low.toNat high.toNat := by
  obtain ⟨width, hwidth, h⟩ := Option.bind_eq_some_iff.1 h
  obtain ⟨above, habove, hmid⟩ := Option.bind_eq_some_iff.1 h
  rw [toNat_of_add? hmid, UInt64.toNat_div, toNat_of_add? habove, toNat_of_sub? hwidth]
  rfl

/-- A round of the search: the half of a range that is left. -/
def halve? (length : UInt64) (dedup : Bool) (low high : UInt64) : Option (UInt64 × UInt64) := do
  let mid ← middle? low high
  if (← totalSize? mid dedup) ≤ length then return (mid, high)
  else return (low, ← sub? mid 1)

theorem halve?_shrinks {length low high low' high' : UInt64} (hlt : low < high)
    (h : halve? length dedup low high = some (low', high')) :
    high'.toNat - low'.toNat < high.toNat - low.toNat := by
  obtain ⟨mid, hmid, h⟩ := Option.bind_eq_some_iff.1 h
  obtain ⟨size, -, h⟩ := Option.bind_eq_some_iff.1 h
  have heq := toNat_of_middle? hmid
  have hlow := lt_middle (UInt64.lt_iff_toNat_lt.1 hlt)
  have hhigh := middle_le (UInt64.lt_iff_toNat_lt.1 hlt)
  rw [← heq] at hlow hhigh
  split at h
  · cases h
    omega
  · obtain ⟨below, hbelow, h⟩ := Option.bind_eq_some_iff.1 h
    have hsub := toNat_of_sub? hbelow
    rw [UInt64.toNat_one] at hsub
    cases h
    omega

/-- The search in words. -/
def bisect? (length : UInt64) (dedup : Bool) (low high : UInt64) : Option UInt64 :=
  if _hlt : low < high then
    match _h : halve? length dedup low high with
    | some (low', high') => bisect? length dedup low' high'
    | none => none
  else some low
termination_by high.toNat - low.toNat
decreasing_by exact halve?_shrinks _hlt _h

theorem bisect?_of_halve? {length low high low' high' : UInt64} (hlt : low < high)
    (h : halve? length dedup low high = some (low', high')) :
    bisect? length dedup low high = bisect? length dedup low' high' := by
  rw [bisect?, dif_pos hlt]
  split
  case h_1 heq =>
    rw [h] at heq
    cases heq
    rfl
  case h_2 heq =>
    rw [h] at heq
    cases heq

/-- The largest layout whose volume fits in `length` bytes. The number of slots is cut to 32 bits. -/
def forDevice? (length : UInt64) (dedup : Bool) : Option (Except StoreError Layout) := do
  if (← totalSize? 1 dedup) ≤ length then
    let limit := length / .ofNat blockSize
    let high := if limit ≤ .ofNat Superblock.maxBlocks then limit else .ofNat Superblock.maxBlocks
    let slots ← narrow? (← bisect? length dedup 1 high)
    return forBlocks slots.toNat dedup
  else return .error .noSpace

variable {w lowWord highWord lengthWord : UInt64}

theorem denotes_dedupBlocksFor? (hw : w.toNat = n) (dedup : Bool) :
    Denotes (dedupBlocksFor? w dedup) (dedupBlocksFor n dedup) := by
  rw [dedupBlocksFor?, dedupBlocksFor]
  split
  · exact denotes_ceilDiv? hw rfl (by decide)
  · exact denotes_some 0

/-- No part of the size is greater than all of it, so the computation stays in 64 bits. -/
theorem denotes_totalSize? (hw : w.toNat = n) (hle : n ≤ Superblock.maxBlocks) (dedup : Bool) :
    Denotes (totalSize? w dedup) (totalSize n dedup) := by
  have hlt := totalSize_lt hle dedup
  have hpad : n * recordSize ≤ paddedSize (n * recordSize) := le_ceilDiv_mul _
  rw [totalSize] at hlt ⊢
  refine (denotes_dedupBlocksFor? hw dedup).bind fun blocks hblocks => ?_
  refine (denotes_mul? hblocks toNat_blockSize (by omega)).bind fun table htable => ?_
  refine (denotes_ceilDiv? (n := 8) hw rfl (by decide)).bind fun bytes hbytes => ?_
  refine (denotes_padded? hbytes (by omega)).bind fun bitmap hbitmap => ?_
  refine (denotes_mul? hw toNat_recordSize (by omega)).bind fun records hrecords => ?_
  refine (denotes_padded? hrecords (by omega)).bind fun keys hkeys => ?_
  refine (denotes_mul? hw toNat_blockSize (by omega)).bind fun data hdata => ?_
  refine (denotes_add? toNat_blockSize hbitmap (by omega)).bind fun _ hsum => ?_
  refine (denotes_add? hsum hkeys (by omega)).bind fun _ hsum => ?_
  refine (denotes_add? hsum htable (by omega)).bind fun _ hsum => ?_
  exact denotes_add? hsum hdata (by omega)

theorem denotes_middle? (hlow : lowWord.toNat = low) (hhigh : highWord.toNat = high) (hlt : low < high)
    (hle : high ≤ Superblock.maxBlocks) : Denotes (middle? lowWord highWord) (middle low high) := by
  have hbound : high < 2 ^ 63 := Nat.lt_of_le_of_lt hle (by decide)
  refine (denotes_sub? hhigh hlow (by omega)).bind fun width hwidth => ?_
  refine (denotes_add? hwidth UInt64.toNat_one (by omega)).bind fun above habove => ?_
  refine denotes_add? hlow ?_ (Nat.lt_of_le_of_lt (middle_le hlt) (by omega))
  rw [UInt64.toNat_div, habove]
  rfl

section Rounds

variable (hlow : lowWord.toNat = low) (hhigh : highWord.toNat = high)
  (h : Brackets lengthWord.toNat dedup low high) (hlt : low < high)

include hlow hhigh h hlt

theorem halve?_of_fits (hfits : totalSize (middle low high) dedup ≤ lengthWord.toNat) :
    ∃ mid, halve? lengthWord dedup lowWord highWord = some (mid, highWord) ∧
      mid.toNat = middle low high := by
  obtain ⟨mid, hmid, hmiddle⟩ := denotes_middle? hlow hhigh hlt h.bounded
  obtain ⟨size, hsize, htotal⟩ :=
    denotes_totalSize? hmiddle (Nat.le_trans (middle_le hlt) h.bounded) dedup
  refine ⟨mid, ?_, hmiddle⟩
  simp only [halve?, hmid, hsize, Option.bind_eq_bind, Option.bind_some]
  exact if_pos (UInt64.le_iff_toNat_le.2 (htotal ▸ hfits))

theorem halve?_of_not_fits (hno : ¬ totalSize (middle low high) dedup ≤ lengthWord.toNat) :
    ∃ below, halve? lengthWord dedup lowWord highWord = some (lowWord, below) ∧
      below.toNat = middle low high - 1 := by
  obtain ⟨mid, hmid, hmiddle⟩ := denotes_middle? hlow hhigh hlt h.bounded
  obtain ⟨size, hsize, htotal⟩ :=
    denotes_totalSize? hmiddle (Nat.le_trans (middle_le hlt) h.bounded) dedup
  have hone : 1 ≤ middle low high := Nat.succ_le_of_lt (Nat.zero_lt_of_lt (lt_middle hlt))
  obtain ⟨below, hbelow, hless⟩ := denotes_sub? hmiddle UInt64.toNat_one hone
  refine ⟨below, ?_, hless⟩
  simp only [halve?, hmid, hsize, hbelow, Option.bind_eq_bind, Option.bind_some]
  exact if_neg fun hle => hno (htotal ▸ UInt64.le_iff_toNat_le.1 hle)

end Rounds

/-- The search in words finds what the search in numbers finds. -/
theorem denotes_bisect? (h : Brackets lengthWord.toNat dedup low high) (hlow : lowWord.toNat = low)
    (hhigh : highWord.toNat = high) :
    Denotes (bisect? lengthWord dedup lowWord highWord) (bisect lengthWord.toNat dedup low high) := by
  revert lowWord highWord
  induction low, high using bisect.induct lengthWord.toNat dedup with
  | case1 low high hlt mid hfits ih =>
    intro lowWord highWord hlow hhigh
    obtain ⟨midWord, hround, hmid⟩ := halve?_of_fits hlow hhigh h hlt hfits
    rw [bisect?_of_halve? ((lt_iff hlow hhigh).2 hlt) hround, bisect, if_pos hlt, if_pos hfits]
    exact ih (h.raise hlt hfits) hmid hhigh
  | case2 low high hlt mid hno ih =>
    intro lowWord highWord hlow hhigh
    obtain ⟨below, hround, hbelow⟩ := halve?_of_not_fits hlow hhigh h hlt hno
    rw [bisect?_of_halve? ((lt_iff hlow hhigh).2 hlt) hround, bisect, if_pos hlt, if_neg hno]
    exact ih (h.lower hlt hno) hlow hbelow
  | case3 low high hstop =>
    intro lowWord highWord hlow hhigh
    rw [bisect?, dif_neg (hstop ∘ (lt_iff hlow hhigh).1), bisect, if_neg hstop, ← hlow]
    exact denotes_some lowWord

/-- The search for the largest layout in words goes as it does in numbers. -/
theorem forDevice?_eq (length : UInt64) (dedup : Bool) :
    forDevice? length dedup = some (forDevice length.toNat dedup) := by
  obtain ⟨one, hone, honeSize⟩ := denotes_totalSize? (w := 1) UInt64.toNat_one (by decide) dedup
  rw [forDevice?, forDevice, hone, Option.bind_eq_bind, Option.bind_some]
  by_cases hfits : totalSize 1 dedup ≤ length.toNat
  · have hstart := Brackets.start hfits
    rw [if_pos hfits, if_pos (by rw [UInt64.le_iff_toNat_le, honeSize]; exact hfits)]
    have hlimit : (length / .ofNat blockSize).toNat = length.toNat / blockSize :=
      Superblock.toNat_div_blockSize _
    have hmax : (UInt64.ofNat Superblock.maxBlocks).toNat = Superblock.maxBlocks := by decide
    have hhigh : (if length / .ofNat blockSize ≤ .ofNat Superblock.maxBlocks then length / .ofNat blockSize
        else .ofNat Superblock.maxBlocks).toNat = min (length.toNat / blockSize) Superblock.maxBlocks := by
      rw [Nat.min_def]
      simp only [UInt64.le_iff_toNat_le, hlimit, hmax]
      split
      · exact hlimit
      · exact hmax
    obtain ⟨slots, hslots, hfound⟩ := denotes_bisect? hstart UInt64.toNat_one hhigh
    have hbound : slots.toNat < 2 ^ 32 := by
      rw [hfound]
      exact Nat.lt_of_le_of_lt hstart.bisect.bounded (by decide)
    obtain ⟨narrow, hnarrow, hsame⟩ := narrow?_eq hbound
    simp only [hslots, hnarrow, Option.bind_eq_bind, Option.bind_some]
    rw [hsame, hfound]
    rfl
  · rw [if_neg hfits, if_neg (by rw [UInt64.le_iff_toNat_le, honeSize]; exact hfits)]
    rfl

/-- **The largest volume is found.** The search for the layout of a device stays in 64 bits, and the number of
slots that it finds has 32. No layout fits that is larger than the one that is found. Where none is found,
not even one slot would have fitted. -/
theorem forDevice_largest (length : UInt64) (dedup : Bool) :
    forDevice? length dedup = some (forDevice length.toNat dedup) ∧
      ((length.toNat < totalSize 1 dedup ∧ forDevice length.toNat dedup = .error .noSpace) ∨
        ∃ l, totalSize 1 dedup ≤ length.toNat ∧ forDevice length.toNat dedup = .ok l ∧ l.dedup = dedup ∧
          l.LargestFor length.toNat) := by
  refine ⟨forDevice?_eq length dedup, ?_⟩
  by_cases hfits : totalSize 1 dedup ≤ length.toNat
  · obtain ⟨l, hl, hdedup, hlargest⟩ := exists_forDevice hfits
    exact .inr ⟨l, hfits, hl, hdedup, hlargest⟩
  · exact .inl ⟨Nat.not_le.1 hfits, by rw [forDevice, if_neg hfits]⟩

/-! ### The superblock of a layout -/

/-- Byte offset of the key table. -/
def keysOffset? (slots : UInt64) : Option UInt64 := do
  add? (.ofNat blockSize) (← padded? (← ceilDiv? slots 8))

/-- Byte offset of the data blocks, behind a key table at `keys`. -/
def dataOffset? (slots : UInt64) (dedup : Bool) (keys : UInt64) : Option UInt64 := do
  let keysStop ← add? keys (← padded? (← mul? slots (.ofNat recordSize)))
  add? keysStop (← mul? (← dedupBlocksFor? slots dedup) (.ofNat blockSize))

/-- The superblock in words. -/
def superblock? (l : Layout) : Option Superblock := do
  let slots := UInt64.ofNat l.slots
  let keys ← keysOffset? slots
  let data ← dataOffset? slots l.dedup keys
  let size ← totalSize? slots l.dedup
  return {
    magic := Superblock.magicNumber
    size := UInt16.ofNat Superblock.encodedSize
    bitmapOffset := .ofNat blockSize
    keysOffset := keys
    dataOffset := data
    blockCount := slots.toUInt32
    flags := if l.dedup then Superblock.dedupFlag else 0
    volumeSize := size }

/-- What is laid out, in blocks: the superblock, a bit for every slot, an entry of the key table for every
slot, the dedup table, and a data block for every slot. -/
def counts (l : Layout) : List Nat :=
  [1, ceilDiv (ceilDiv l.slots 8) blockSize, ceilDiv (l.slots * recordSize) blockSize, l.dedupBlocks, l.slots]

/-- The superblock `sb` passes its check on exactly the devices that the volume fits on, and describes regions
that follow each other from block 0 to the end of the volume with neither a gap nor a block in common.
Worked out from its fields once more, the dedup table is where the layout has it, and every slot has a bit
and its entries. -/
structure Tiles (l : Layout) (sb : Superblock) : Prop where
  slots : sb.slots = l.slots
  isDedup : sb.isDedup = l.dedup
  words : l.superblock? = some sb
  accepted : ∀ length, sb.validate length = .ok () ↔ l.size ≤ length
  checked : ∀ length : UInt64, sb.validate? length = some (sb.validate length.toNat)
  derived : sb.InWords
  regions : sb.regions = Region.endToEnd 0 l.counts
  adjoining : sb.regions.IsChain Region.Adjoins
  stop : sb.dataRegion.stop * blockSize = l.size
  dedupBlocks : sb.dedupBlocks = l.dedupBlocks
  dedupStart : sb.dedupStart = (l.counts.take 3).sum
  bits : l.slots ≤ sb.bitmapRegion.count * blockSize * 8
  keys : l.slots ≤ sb.keysRegion.count * recordsPerBlock
  entries : l.dedup → l.slots ≤ sb.dedupRegion.count * recordsPerBlock

variable (l)

theorem toNat_slots : (UInt64.ofNat l.slots).toNat = l.slots :=
  UInt64.toNat_ofNat_of_lt' (Nat.lt_of_le_of_lt l.slots_le (by decide))

theorem denotes_keysOffset? (hw : w.toNat = l.slots) : Denotes (keysOffset? w) l.keysOffset := by
  have hlt := l.size_lt
  rw [size_eq, dataOffset, keysOffset] at hlt
  refine (denotes_ceilDiv? (n := 8) hw rfl (by decide)).bind fun bytes hbytes => ?_
  refine (denotes_padded? hbytes (by omega)).bind fun bitmap hbitmap => ?_
  exact denotes_add? toNat_blockSize hbitmap (by omega)

theorem denotes_dataOffset? {keys : UInt64} (hw : w.toNat = l.slots) (hkeys : keys.toNat = l.keysOffset) :
    Denotes (dataOffset? w l.dedup keys) l.dataOffset := by
  have hlt := l.size_lt
  have hpad : l.slots * recordSize ≤ paddedSize (l.slots * recordSize) := le_ceilDiv_mul _
  rw [size_eq, dataOffset] at hlt
  refine (denotes_mul? hw toNat_recordSize (by omega)).bind fun records hrecords => ?_
  refine (denotes_padded? hrecords (by omega)).bind fun padded hpadded => ?_
  refine (denotes_add? hkeys hpadded (by omega)).bind fun stop hstop => ?_
  refine (denotes_dedupBlocksFor? hw l.dedup).bind fun blocks hblocks => ?_
  refine (denotes_mul? hblocks toNat_blockSize (by rw [dedupBlocks] at hlt; omega)).bind
    fun table htable => ?_
  exact denotes_add? hstop htable (by omega)

/-- No offset is greater than the size of the volume, so the computation stays in 64 bits. -/
theorem superblock?_eq : l.superblock? = some l.superblock := by
  obtain ⟨keys, hkeys, hkeysOffset⟩ := l.denotes_keysOffset? l.toNat_slots
  obtain ⟨data, hdata, hdataOffset⟩ := l.denotes_dataOffset? l.toNat_slots hkeysOffset
  obtain ⟨size, hsize, hvolume⟩ := denotes_totalSize? l.toNat_slots l.slots_le l.dedup
  obtain rfl : keys = l.superblock.keysOffset := by
    rw [← UInt64.toNat_inj, hkeysOffset, keysOffset_superblock]
  obtain rfl : data = l.superblock.dataOffset := by
    rw [← UInt64.toNat_inj, hdataOffset, dataOffset_superblock]
  obtain rfl : size = l.superblock.volumeSize := by
    rw [← UInt64.toNat_inj, hvolume, volumeSize_superblock, Layout.size]
  have hcount : (UInt64.ofNat l.slots).toUInt32 = UInt32.ofNat l.slots := by
    have h := l.slots_superblock
    rw [← UInt32.toNat_inj, UInt64.toNat_toUInt32, toNat_slots]
    exact (Nat.mod_eq_of_lt (Nat.lt_of_le_of_lt l.slots_le (by decide))).trans h.symm
  simp only [superblock?, hkeys, hdata, hsize, hcount, Option.bind_eq_bind, Option.bind_some]
  rfl

theorem validate_superblock (length : Nat) : l.superblock.validate length = .ok () ↔ l.size ≤ length := by
  rw [Superblock.validate_eq_ok_iff]
  constructor
  · intro hfits
    rw [← volumeSize_superblock]
    exact hfits.volume_le
  · exact l.fits_superblock

theorem bitmapStart_superblock : l.superblock.bitmapStart = 1 := by
  rw [Superblock.bitmapStart, bitmapOffset_superblock]
  rfl

theorem bitmapBlocks_superblock : l.superblock.bitmapBlocks = ceilDiv (ceilDiv l.slots 8) blockSize := by
  rw [Superblock.bitmapBlocks, Allocator.bitmapSize, slots_superblock, paddedSize]
  exact Nat.mul_div_cancel _ (by decide)

theorem keysStart_superblock : l.superblock.keysStart = 1 + ceilDiv (ceilDiv l.slots 8) blockSize := by
  simp only [Superblock.keysStart, keysOffset_superblock, keysOffset, paddedSize, blockSize]
  omega

theorem dedupStart_eq : l.superblock.dedupStart =
    1 + ceilDiv (ceilDiv l.slots 8) blockSize + ceilDiv (l.slots * recordSize) blockSize := by
  simp only [Superblock.dedupStart, keysOffset_superblock, keysOffset, slots_superblock, paddedSize,
    blockSize]
  omega

/-- An entry takes a whole part of a block, so it does not matter whether entries or bytes are counted. -/
theorem ceilDiv_recordsPerBlock (n : Nat) :
    ceilDiv n recordsPerBlock = ceilDiv (n * recordSize) blockSize := by
  simp only [ceilDiv, recordsPerBlock, recordSize, blockSize]
  omega

/-- The offsets of the superblock are sums of amounts in bytes, each padded, and the regions that are worked
out from them are the same amounts in blocks. -/
theorem regions_superblock : l.superblock.regions = Region.endToEnd 0 l.counts := by
  simp only [Superblock.regions, Superblock.inner, Superblock.bitmapRegion, Superblock.keysRegion,
    Superblock.dedupRegion, Superblock.dataRegion, counts, Region.endToEnd, slots_superblock,
    bitmapStart_superblock, bitmapBlocks_superblock, keysStart_superblock, dedupStart_eq,
    ceilDiv_recordsPerBlock, dedupBlocks_superblock, ← dedupStart_superblock, Nat.zero_add]

/-- The superblock of a layout lays its regions end to end. -/
theorem tiles_superblock : l.Tiles l.superblock where
  slots := l.slots_superblock
  isDedup := l.isDedup_superblock
  words := l.superblock?_eq
  accepted := l.validate_superblock
  checked := l.superblock.validate?_eq
  derived := (l.fits_superblock (Nat.le_refl _)).inWords
  regions := l.regions_superblock
  adjoining := by
    rw [regions_superblock]
    exact Region.isChain_endToEnd _ _
  stop := by
    have haligned := (l.fits_superblock (Nat.le_refl _)).data_aligned
    have hdata : l.superblock.dataStart * blockSize = l.dataOffset := by
      rw [Superblock.dataStart, Nat.div_mul_cancel (Nat.dvd_of_mod_eq_zero haligned), dataOffset_superblock]
    rw [Superblock.dataRegion, Region.stop, Nat.add_mul, hdata, slots_superblock, size_eq]
  dedupBlocks := l.dedupBlocks_superblock
  dedupStart := by
    rw [dedupStart_eq, counts]
    simp only [List.take_succ_cons, List.take_zero, List.sum_cons, List.sum_nil, Nat.add_zero, Nat.add_assoc]
  bits := by
    rw [Superblock.bitmapRegion, bitmapBlocks_superblock]
    simp only [ceilDiv, blockSize]
    omega
  keys := by
    rw [Superblock.keysRegion, slots_superblock]
    simp only [ceilDiv, recordsPerBlock, recordSize, blockSize]
    omega
  entries hd := by
    have h := l.slots_le_dedupCapacity hd
    rw [slots_superblock] at h
    exact h

end Layout

end BlockStore
