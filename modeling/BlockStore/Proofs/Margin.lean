import BlockStore.Proofs.Regions
import BlockStore.Proofs.Lookup

/-!
# What lies outside a view

A view does not show all of an image. Outside it are block 0, the blocks between and behind the regions,
the records of the last block of the key table that belong to no slot, and the bits past the last slot.
None of the writes of a volume reaches any of that, although two of them write such a block back. What
is outside and the view together are the whole image.

## Main definitions

* `Superblock.SameMargin`: two images agree outside the view.

## Main results

* `Superblock.sameMargin_writeData`, `sameMargin_writeRecord`, `sameMargin_writeUsed`: each kind of
  write keeps what is outside.
* `Superblock.SameMargin.eq_of_view`: images with the same view that agree outside it are equal.
-/

namespace BlockStore

/-! ### Bytes from what is decoded of them -/

/-- A number determines the bytes that hold it. -/
theorem byteAt_eq_of_leNat {a b : ByteArray} {i j n : Nat} (h : leNat a i n = leNat b j n) {k : Nat}
    (hk : k < n) : byteAt a (i + k) = byteAt b (j + k) := by
  induction n generalizing i j k with
  | zero => exact absurd hk (Nat.not_lt_zero k)
  | succ n ih =>
    rw [leNat, leNat] at h
    have ha := (byteAt a i).toNat_lt
    have hb := (byteAt b j).toNat_lt
    cases k with
    | zero =>
      rw [Nat.add_zero, Nat.add_zero]
      exact UInt8.toNat_inj.1 (by omega)
    | succ k =>
      have hrest : leNat a (i + 1) n = leNat b (j + 1) n := by omega
      have := ih hrest (k := k) (by omega)
      rwa [Nat.add_assoc, Nat.add_assoc, Nat.add_comm 1 k] at this

theorem leNat_lt (b : ByteArray) (i n : Nat) : leNat b i n < 256 ^ n := by
  induction n generalizing i with
  | zero => exact Nat.one_pos
  | succ n ih =>
    have hbyte := (byteAt b i).toNat_lt
    have hrest := ih (i + 1)
    rw [leNat, Nat.pow_succ]
    omega

namespace Record

/-- All but the last field of a record determine the bytes before it. -/
theorem byteAt_eq_of_head {a b : ByteArray} {i j : Nat} (hkey : (decode a i).key = (decode b j).key)
    (hflags : (decode a i).flags = (decode b j).flags)
    (hcount : (decode a i).refCount = (decode b j).refCount) {k : Nat} (hk : k < 24) :
    byteAt a (i + k) = byteAt b (j + k) := by
  simp only [decode] at hkey hflags hcount
  have hnat {m : Nat} (hm : m ≤ k) (hn : k < m + 2)
      (h : UInt16.ofNat (leNat a (i + m) 2) = UInt16.ofNat (leNat b (j + m) 2)) :
      byteAt a (i + k) = byteAt b (j + k) := by
    have h := congrArg UInt16.toNat h
    rw [UInt16.toNat_ofNat_of_lt' (leNat_lt _ _ 2), UInt16.toNat_ofNat_of_lt' (leNat_lt _ _ 2)] at h
    have := byteAt_eq_of_leNat h (k := k - m) (by omega)
    rwa [Nat.add_assoc, Nat.add_assoc, Nat.add_sub_cancel' hm] at this
  by_cases h20 : k < 20
  · rw [← Key.byteAt_ofBytes a i k h20, ← Key.byteAt_ofBytes b j k h20, hkey]
  by_cases h22 : k < 22
  · exact hnat (m := 20) (by omega) (by omega) hflags
  · exact hnat (m := 22) (by omega) (by omega) hcount

/-- A record determines its 32 bytes. -/
theorem byteAt_eq_of_decode {a b : ByteArray} {i j : Nat} (h : decode a i = decode b j) {k : Nat}
    (hk : k < recordSize) : byteAt a (i + k) = byteAt b (j + k) := by
  by_cases h24 : k < 24
  · exact byteAt_eq_of_head (by rw [h]) (by rw [h]) (by rw [h]) h24
  · have hword := congrArg (fun rec : Record => rec.word.toNat) h
    simp only [decode] at hword
    rw [UInt64.toNat_ofNat_of_lt' (leNat_lt _ _ 8), UInt64.toNat_ofNat_of_lt' (leNat_lt _ _ 8)] at hword
    simp only [recordSize] at hk
    have := byteAt_eq_of_leNat hword (k := k - 24) (by omega)
    rwa [Nat.add_assoc, Nat.add_assoc, Nat.add_sub_cancel' (by omega)] at this

end Record

/-- A block is determined by its records. -/
theorem Block.ext_record {a b : Block} (h : ∀ i < recordsPerBlock, a.record i = b.record i) : a = b := by
  refine Block.ext (ext_byteAt (by rw [a.size_eq, b.size_eq]) fun k => ?_)
  by_cases hk : k < blockSize
  · have hi : k / recordSize < recordsPerBlock :=
      (Nat.div_lt_iff_lt_mul (by decide)).2 (by
        rw [show recordsPerBlock * recordSize = blockSize by decide]
        exact hk)
    have := Record.byteAt_eq_of_decode (h _ hi) (Nat.mod_lt k (by decide))
    rwa [Nat.mul_comm, Nat.div_add_mod] at this
  · rw [byteAt_of_le (by rw [a.size_eq]; omega), byteAt_of_le (by rw [b.size_eq]; omega)]

/-- A bitmap is determined by its bits. -/
theorem bitmap_ext {a b : ByteArray} (hsize : a.size = b.size) (h : ∀ s, testSlot a s = testSlot b s) :
    a = b := by
  refine ext_byteAt hsize fun i => UInt8.toNat_inj.1 (Nat.eq_of_testBit_eq fun j => ?_)
  by_cases hj : j < 8
  · have := h (8 * i + (7 - j))
    simp only [testSlot] at this
    rwa [show (8 * i + (7 - j)) / 8 = i by omega, show 7 - (8 * i + (7 - j)) % 8 = j by omega] at this
  · have hpow : 2 ^ 8 ≤ 2 ^ j := Nat.pow_le_pow_right (by decide) (by omega)
    rw [Nat.testBit_lt_two_pow (Nat.lt_of_lt_of_le (byteAt a i).toNat_lt hpow),
      Nat.testBit_lt_two_pow (Nat.lt_of_lt_of_le (byteAt b i).toNat_lt hpow)]

/-- Blocks that are read alike are alike. -/
theorem Image.block_eq_of_read {im im' : Image} {n count k : Nat} (h : im'.read n count = im.read n count)
    (hk : k < count) : im'.block (n + k) = im.block (n + k) := by
  refine Block.ext (ext_byteAt (by rw [Block.size_eq, Block.size_eq]) fun i => ?_)
  by_cases hi : i < blockSize
  · have hlt : k * blockSize + i < count * blockSize := by
      have := Nat.mul_le_mul_right blockSize (show k + 1 ≤ count from hk)
      rw [Nat.succ_mul] at this
      omega
    have := congrArg (byteAt · (k * blockSize + i)) h
    simp only [byteAt_read, if_pos hlt, ← Nat.add_assoc, ← Nat.add_mul] at this
    rwa [byte_mul_add _ _ hi, byte_mul_add _ _ hi] at this
  · rw [byteAt_of_le (by rw [Block.size_eq]; omega), byteAt_of_le (by rw [Block.size_eq]; omega)]

namespace Superblock

/-- Two images agree outside the view. -/
structure SameMargin (sb : Superblock) (im im' : Image) : Prop where
  size : im'.size = im.size
  block : ∀ n, (∀ r ∈ sb.inner, ¬ r.Holds n) → im'.block n = im.block n
  record : ∀ i, sb.slots ≤ i → i / recordsPerBlock < sb.keysRegion.count →
    (im'.block (sb.keysStart + i / recordsPerBlock)).record (i % recordsPerBlock) =
      (im.block (sb.keysStart + i / recordsPerBlock)).record (i % recordsPerBlock)
  bit : ∀ s, sb.slots ≤ s → testSlot (sb.bitmapOf im') s = testSlot (sb.bitmapOf im) s

namespace SameMargin

variable {sb : Superblock} {length : Nat} {im im' im'' : Image}

theorem refl (sb : Superblock) (im : Image) : sb.SameMargin im im :=
  ⟨rfl, fun _ _ => rfl, fun _ _ _ => rfl, fun _ _ => rfl⟩

theorem trans (h : sb.SameMargin im im') (h' : sb.SameMargin im' im'') : sb.SameMargin im im'' where
  size := h'.size.trans h.size
  block n hn := (h'.block n hn).trans (h.block n hn)
  record i hi hk := (h'.record i hi hk).trans (h.record i hi hk)
  bit s hs := (h'.bit s hs).trans (h.bit s hs)

theorem symm (h : sb.SameMargin im im') : sb.SameMargin im' im where
  size := h.size.symm
  block n hn := (h.block n hn).symm
  record i hi hk := (h.record i hi hk).symm
  bit s hs := (h.bit s hs).symm

/-- The bitmaps agree when the bits in the view and those outside do. -/
theorem bitmapOf_eq (h : sb.SameMargin im im') (hused : (sb.view im').used = (sb.view im).used) :
    sb.bitmapOf im' = sb.bitmapOf im := by
  refine bitmap_ext (by rw [size_bitmapOf, size_bitmapOf]) fun s => ?_
  by_cases hs : s < sb.slots
  · have := congrFun hused s
    simpa [view, hs] using this
  · exact h.bit s (Nat.not_lt.1 hs)

theorem keyBlock_eq (h : sb.SameMargin im im') (hview : sb.view im' = sb.view im) {k : Nat}
    (hk : k < sb.keysRegion.count) : im'.block (sb.keysStart + k) = im.block (sb.keysStart + k) := by
  refine Block.ext_record fun j hj => ?_
  obtain ⟨hdiv, hmod⟩ := RecordTable.split_index hj k
  by_cases hs : k * recordsPerBlock + j < sb.slots
  · have := congrFun (congrArg View.keys hview) (k * recordsPerBlock + j)
    simp only [view, if_pos hs, hdiv, hmod] at this
    exact congrArg KeyEntry.toRecord this
  · have := h.record (k * recordsPerBlock + j) (Nat.not_lt.1 hs) (by rw [hdiv]; exact hk)
    rwa [hdiv, hmod] at this

theorem sharedBlock_eq (hshared : (sb.view im').shared = (sb.view im).shared) {k : Nat}
    (hk : k < sb.dedupBlocks) : im'.block (sb.dedupStart + k) = im.block (sb.dedupStart + k) := by
  refine Block.ext_record fun j hj => ?_
  obtain ⟨hdiv, hmod⟩ := RecordTable.split_index hj k
  have hi : k * recordsPerBlock + j < sb.dedupCapacity := by
    have := Nat.mul_le_mul_right recordsPerBlock (show k + 1 ≤ sb.dedupBlocks from hk)
    rw [Nat.succ_mul] at this
    rw [dedupCapacity]
    omega
  have := congrFun hshared (k * recordsPerBlock + j)
  simp only [view, if_pos hi, hdiv, hmod] at this
  exact congrArg DedupEntry.toRecord this

/-- The blocks outside the key table are a matter of the rest of the view. -/
theorem block_eq_of_not_holds (h : sb.SameMargin im im') (hused : (sb.view im').used = (sb.view im).used)
    (hshared : (sb.view im').shared = (sb.view im).shared)
    (hdata : (sb.view im').data = (sb.view im).data) {n : Nat} (hkeys : ¬ sb.keysRegion.Holds n) :
    im'.block n = im.block n := by
  by_cases hn : ∃ r ∈ sb.inner, r.Holds n
  · obtain ⟨r, hr, hfirst, hstop⟩ := hn
    obtain ⟨k, rfl⟩ := Nat.exists_eq_add_of_le hfirst
    have hk : k < r.count := Nat.lt_of_add_lt_add_left hstop
    simp only [inner, List.mem_cons, List.not_mem_nil, or_false] at hr
    rcases hr with rfl | rfl | rfl | rfl
    · exact Image.block_eq_of_read (h.bitmapOf_eq hused) hk
    · exact absurd ⟨hfirst, hstop⟩ hkeys
    · exact sharedBlock_eq hshared hk
    · have := congrFun hdata k
      simp only [view, if_pos (show k < sb.slots from hk)] at this
      exact this
  · exact h.block n fun r hr hheld => hn ⟨r, hr, hheld⟩

/-- Images with the same view that agree outside it are equal. -/
theorem eq_of_view (h : sb.SameMargin im im') (hview : sb.view im' = sb.view im) : im' = im := by
  refine Image.ext h.size fun n => ?_
  by_cases hn : sb.keysRegion.Holds n
  · obtain ⟨hfirst, hstop⟩ := hn
    obtain ⟨k, rfl⟩ := Nat.exists_eq_add_of_le hfirst
    exact h.keyBlock_eq hview (Nat.lt_of_add_lt_add_left hstop)
  · exact h.block_eq_of_not_holds (congrArg View.used hview) (congrArg View.shared hview)
      (congrArg View.data hview) hn

end SameMargin

/-! ### The writes of a volume -/

variable {sb : Superblock} {length : Nat} {im : Image}

/-- A write to a block of a region, of which what is outside the view is written back. -/
theorem sameMargin_write (h : sb.Fits im.size) {n : Nat} {b : Block} {r : Region} (hr : r ∈ sb.inner)
    (hn : r.Holds n)
    (hrecord : ∀ i, sb.slots ≤ i → i / recordsPerBlock < sb.keysRegion.count →
      n = sb.keysStart + i / recordsPerBlock →
      b.record (i % recordsPerBlock) = (im.block n).record (i % recordsPerBlock))
    (hbit : ∀ s, sb.slots ≤ s →
      testSlot (sb.bitmapOf (im.write n b.bytes)) s = testSlot (sb.bitmapOf im) s) :
    sb.SameMargin im (im.write n b.bytes) where
  size := Image.size_write_of_le (end_le_of_holds h hr hn)
  block m hm := by
    rw [Image.block_write_bytes, if_neg]
    rintro rfl
    exact hm r hr hn
  record i hi hk := by
    rw [Image.block_write_bytes]
    split
    case isTrue heq => rw [hrecord i hi hk heq, heq]
    case isFalse => rfl
  bit := hbit

/-- A write behind the bitmap leaves the bitmap alone. -/
theorem bitmapOf_write_of_le (h : sb.Fits length) {n : Nat} (hn : sb.keysStart ≤ n) (b : Block) :
    sb.bitmapOf (im.write n b.bytes) = sb.bitmapOf im :=
  Image.read_write_of_disjoint (.inr (Nat.le_trans h.bitmap_le_keysStart hn))

/-- A write behind the key table may write anything. -/
theorem sameMargin_write_of_before (h : sb.Fits im.size) {n : Nat} (b : Block) {r : Region}
    (hr : r ∈ sb.inner) (hkeys : sb.keysRegion.Before r) (hn : r.Holds n) :
    sb.SameMargin im (im.write n b.bytes) := by
  refine sameMargin_write h hr hn (fun i _ hi heq => ?_) fun s _ => ?_
  · have hheld : sb.keysRegion.Holds n := heq ▸ ⟨Nat.le_add_right _ _, Nat.add_lt_add_left hi _⟩
    exact absurd hn (hkeys.disjoint n hheld)
  · rw [bitmapOf_write_of_le h (Nat.le_trans (Nat.le_add_right _ _) (Nat.le_trans hkeys hn.1))]

theorem sameMargin_writeData (h : sb.Fits im.size) {s : Nat} (hs : s < sb.slots) (b : Block) :
    sb.SameMargin im (im.write (sb.dataBlock s) b.bytes) :=
  sameMargin_write_of_before h b (by simp [inner])
    ((keysRegion_before h).trans (dedupRegion_before h)) (mem_dataRegion.2 ⟨s, hs, rfl⟩)

theorem sameMargin_writeShared (h : sb.Fits im.size) {i : Nat} (hi : i < sb.dedupCapacity) (b : Block) :
    sb.SameMargin im (im.write (sb.dedupStart + i / recordsPerBlock) b.bytes) :=
  sameMargin_write_of_before h b (by simp [inner]) (keysRegion_before h) (mem_dedupRegion hi)

/-- The block that holds the entry of a slot may hold records of no slot as well. -/
theorem sameMargin_writeKey (h : sb.Fits im.size) {s : Nat} (hs : s < sb.slots) (rec : Record) :
    sb.SameMargin im (im.write (sb.keysStart + s / recordsPerBlock)
      ((im.block (sb.keysStart + s / recordsPerBlock)).setRecord (s % recordsPerBlock) rec).bytes) := by
  have hmod (n : Nat) : n % recordsPerBlock < recordsPerBlock := Nat.mod_lt _ (by decide)
  refine sameMargin_write h (by simp [inner]) (mem_keysRegion hs) (fun i hi _ heq => ?_) fun t _ => ?_
  · have hdiv : s / recordsPerBlock = i / recordsPerBlock := Nat.add_left_cancel heq
    rw [Block.record_setRecord _ _ (hmod s) (hmod i), if_neg]
    intro hrec
    have := Nat.div_add_mod s recordsPerBlock
    rw [hdiv, hrec, Nat.div_add_mod] at this
    omega
  · rw [bitmapOf_write_of_le h (Nat.le_add_right _ _)]

/-- The block of the bitmap that holds the bit of a slot may hold bits past the last slot as well. -/
theorem sameMargin_writeUsed (h : sb.Fits im.size) {s : Nat} (hs : s < sb.slots) (used : Bool) {b : Block}
    (hb : b.bytes = (assignSlot (sb.bitmapOf im) s used).extract
      (s / 8 / blockSize * blockSize) ((s / 8 / blockSize + 1) * blockSize)) :
    sb.SameMargin im (im.write (sb.bitmapStart + s / 8 / blockSize) b.bytes) := by
  refine sameMargin_write h (by simp [inner]) (mem_bitmapRegion hs) (fun i _ hi heq => ?_) fun t ht => ?_
  · have hheld : sb.keysRegion.Holds (sb.bitmapStart + s / 8 / blockSize) :=
      heq ▸ ⟨Nat.le_add_right _ _, Nat.add_lt_add_left hi _⟩
    exact absurd hheld ((bitmapRegion_before h).disjoint _ (mem_bitmapRegion hs))
  · rw [bitmapOf_write im hs used hb,
      testSlot_assignSlot (by rw [size_bitmapOf]; exact div_lt_bitmapSize hs), if_neg (by omega)]

end Superblock

end BlockStore
