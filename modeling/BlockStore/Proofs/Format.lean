import BlockStore.Proofs.Attach

/-!
# Formatting

Formatting writes every region of a volume, so what the device held before does not matter: afterwards
every entry is free, every bit is clear and every data block is zero. Writing whole batches of blocks
is what takes work here, and `Device.Yields` is all the program logic it needs, since nobody looks at
a device while it is being formatted.

## Main definitions

* `Device.Yields`: a statement about an action on a device that may fail.

## Main results

* `Layout.fits_superblock`: the superblock of a layout describes a volume of its size.
* `Volume.format_cases`: formatting yields an empty volume, unless the device is too small or fails.
* `Volume.shows_of_format`: what it yields.
-/

namespace BlockStore

/-! ### The geometry of a layout -/

namespace Layout

variable (l : Layout)

theorem slots_superblock : l.superblock.slots = l.slots := by
  have h := l.slots_le
  simp only [Superblock.maxBlocks] at h
  exact UInt32.toNat_ofNat_of_lt' (by rw [Nat.one_shiftLeft] at h; simp only [UInt32.size]; omega)

theorem isDedup_superblock : l.superblock.isDedup = l.dedup := by
  cases hd : l.dedup <;> simp [superblock, Superblock.isDedup, hd, Superblock.dedupFlag]

/-- Byte offset of the key table. -/
def keysOffset : Nat := blockSize + paddedSize (ceilDiv l.slots 8)

/-- Byte offset of the data blocks. -/
def dataOffset : Nat := l.keysOffset + paddedSize (l.slots * recordSize) + l.dedupBlocks * blockSize

theorem size_eq : l.size = l.dataOffset + l.slots * blockSize := rfl

theorem size_lt : l.size < 2 ^ 64 := by
  have h := l.slots_le
  simp only [Superblock.maxBlocks, Nat.one_shiftLeft] at h
  have hdedup : l.dedupBlocks ≤ ceilDiv l.slots recordsPerBlock := by
    rw [dedupBlocks, dedupBlocksFor]
    split
    · exact Nat.le_refl _
    · exact Nat.zero_le _
  simp only [size_eq, dataOffset, keysOffset, paddedSize, ceilDiv, recordsPerBlock, recordSize,
    blockSize] at *
  omega

theorem bitmapOffset_superblock : l.superblock.bitmapOffset.toNat = blockSize := by
  exact UInt64.toNat_ofNat_of_lt' (by decide)

theorem keysOffset_superblock : l.superblock.keysOffset.toNat = l.keysOffset := by
  have h := l.size_lt
  have hle : l.keysOffset ≤ l.size := by
    simp only [size_eq, dataOffset]
    omega
  exact UInt64.toNat_ofNat_of_lt' (Nat.lt_of_le_of_lt hle h)

theorem dataOffset_superblock : l.superblock.dataOffset.toNat = l.dataOffset := by
  have h := l.size_lt
  have hle : l.dataOffset ≤ l.size := by
    simp only [size_eq]
    omega
  exact UInt64.toNat_ofNat_of_lt' (Nat.lt_of_le_of_lt hle h)

theorem volumeSize_superblock : l.superblock.volumeSize.toNat = l.size :=
  UInt64.toNat_ofNat_of_lt' l.size_lt

theorem dedupStart_superblock :
    l.superblock.dedupStart + l.dedupBlocks = l.superblock.dataStart := by
  simp only [Superblock.dedupStart, Superblock.dataStart, keysOffset_superblock, slots_superblock,
    dataOffset_superblock, dataOffset, keysOffset, paddedSize, ceilDiv, blockSize]
  omega

theorem dedupBlocks_superblock : l.superblock.dedupBlocks = l.dedupBlocks := by
  have h := l.dedupStart_superblock
  rw [Superblock.dedupBlocks, isDedup_superblock]
  cases hd : l.dedup with
  | true =>
    rw [if_pos rfl]
    omega
  | false =>
    rw [if_neg (by decide), dedupBlocks, dedupBlocksFor, hd]
    rfl

/-- The superblock of a layout describes a volume of its size. -/
theorem fits_superblock {length : Nat} (h : l.size ≤ length) : l.superblock.Fits length := by
  have hpos := l.slots_pos
  refine ⟨rfl, rfl, ?_, ?_, ?_, ?_, ?_, ?_, ?_, ?_, ?_, ?_, ?_, ?_, ?_⟩
  · rw [slots_superblock]
    exact hpos
  · rw [slots_superblock]
    exact l.slots_le
  · rw [bitmapOffset_superblock]
    exact Nat.mod_self _
  · rw [keysOffset_superblock]
    simp only [keysOffset, paddedSize, blockSize]
    omega
  · rw [dataOffset_superblock]
    simp only [dataOffset, keysOffset, paddedSize, blockSize]
    omega
  · rw [keysOffset_superblock, dataOffset_superblock]
    simp only [dataOffset, keysOffset, paddedSize, ceilDiv, recordSize, blockSize]
    omega
  · rw [keysOffset_superblock, bitmapOffset_superblock]
    simp only [keysOffset, paddedSize, ceilDiv, blockSize]
    omega
  · rw [bitmapOffset_superblock]
    decide
  · rw [slots_superblock, keysOffset_superblock, bitmapOffset_superblock]
    simp only [keysOffset, paddedSize, ceilDiv, blockSize]
    omega
  · rw [slots_superblock, keysOffset_superblock, dataOffset_superblock]
    simp only [dataOffset, keysOffset, paddedSize, ceilDiv, blockSize]
    omega
  · rw [isDedup_superblock, dedupBlocks_superblock]
    intro hd
    rw [dedupBlocks, dedupBlocksFor, if_pos hd, ceilDiv]
    exact Nat.ne_of_gt (Nat.div_pos (by omega) (by decide))
  · rw [dataOffset_superblock, slots_superblock, volumeSize_superblock]
    exact Nat.le_of_eq l.size_eq.symm
  · rw [volumeSize_superblock]
    exact h

/-- The dedup table of a formatted volume has an entry for every slot. -/
theorem slots_le_dedupCapacity (hd : l.dedup) : l.superblock.slots ≤ l.superblock.dedupCapacity := by
  rw [slots_superblock, Superblock.dedupCapacity, dedupBlocks_superblock, dedupBlocks, dedupBlocksFor,
    if_pos hd]
  simp only [ceilDiv, recordsPerBlock, recordSize, blockSize]
  omega

end Layout

/-! ### Repeated blocks -/

namespace Block

theorem repeated_succ (b : Block) (n : Nat) : b.repeated (n + 1) = b.repeated n ++ b.bytes := by
  simp [repeated, List.replicate_succ']

@[simp] theorem size_repeated (b : Block) (n : Nat) : (b.repeated n).size = n * blockSize := by
  induction n with
  | zero => rw [Nat.zero_mul]; rfl
  | succ n ih => rw [repeated_succ, ByteArray.size_append, ih, b.size_eq, Nat.succ_mul]

theorem byteAt_repeated (b : Block) {n k i : Nat} (hk : k < n) (hi : i < blockSize) :
    byteAt (b.repeated n) (k * blockSize + i) = byteAt b.bytes i := by
  induction n with
  | zero => omega
  | succ n ih =>
    rw [repeated_succ, byteAt_append, size_repeated]
    by_cases hkn : k < n
    · have hle := Nat.mul_le_mul_right blockSize (show k + 1 ≤ n by omega)
      rw [Nat.succ_mul] at hle
      rw [if_pos (by omega), ih hkn]
    · obtain rfl : k = n := by omega
      rw [if_neg (by omega), Nat.add_sub_cancel_left]

theorem blockOf_repeated (b : Block) {n k : Nat} (hk : k < n) : Image.blockOf (b.repeated n) k = b := by
  refine Block.ext (ext_byteAt ?_ ?_)
  · rw [Block.size_eq, Block.size_eq]
  · intro i
    by_cases hi : i < blockSize
    · rw [Image.byteAt_blockOf _ _ hi, byteAt_repeated b hk hi]
    · rw [byteAt_of_le (by rw [Block.size_eq]; omega), byteAt_of_le (by rw [Block.size_eq]; omega)]

end Block

/-! ### Writing regions -/

namespace Device

/-- The action succeeds with a result that satisfies `Q`, or fails on a device for which `r` does not
hold. -/
def Yields {α : Type} (r : Prop) (act : DeviceM α) (d : Device) (Q : α → Device → Prop) : Prop :=
  match act d with
  | .ok a d' => Q a d'
  | .error _ _ => ¬ r

namespace Yields

variable {α β : Type} {r : Prop} {act : DeviceM α} {d : Device} {Q Q' : α → Device → Prop}

theorem bind {f : α → DeviceM β} {R : β → Device → Prop} (hact : Yields r act d Q)
    (hf : ∀ a d', Q a d' → Yields r (f a) d' R) : Yields r (act >>= f) d R := by
  unfold Yields at hact ⊢
  simp only [Bind.bind, EStateM.bind]
  cases hrun : act d with
  | error e d' =>
    rw [hrun] at hact
    exact hact
  | ok a d' =>
    rw [hrun] at hact
    exact hf a d' hact

theorem pure {a : α} (h : Q a d) : Yields r (pure a) d Q := h

theorem mono (h : Yields r act d Q) (hQ : ∀ a d', Q a d' → Q' a d') : Yields r act d Q' := by
  unfold Yields at h ⊢
  cases hrun : act d with
  | error e d' => rw [hrun] at h; exact h
  | ok a d' => rw [hrun] at h; exact hQ a d' h

end Yields

/-- A device that comes from `d` with every block from `start` on, `count` of them, equal to `b`. -/
structure Filled (d : Device) (start count : Nat) (b : Block) (d' : Device) : Prop where
  reliable : d'.Reliable ↔ d.Reliable
  size : d'.size = d.size
  block : ∀ n, d'.image.block n =
    if start ≤ n ∧ n < start + count then b else d.image.block n

variable {d d' : Device} {start count n : Nat} {b : Block}

theorem Filled.covers (h : d.Filled start count b d') {s c : Nat} (hc : d.Covers s c) :
    d'.Covers s c := hc.of_size_eq h.size

/-- Filling the blocks that follow. -/
theorem Filled.append {d'' : Device} {m : Nat} (h : d.Filled start n b d')
    (h' : d'.Filled (start + n) m b d'') : d.Filled start (n + m) b d'' := by
  refine ⟨h'.reliable.trans h.reliable, h'.size.trans h.size, fun k => ?_⟩
  rw [h'.block, h.block]
  by_cases h1 : start + n ≤ k ∧ k < start + n + m
  · rw [if_pos h1, if_pos (by omega)]
  · rw [if_neg h1]
    by_cases h2 : start ≤ k ∧ k < start + n
    · rw [if_pos h2, if_pos (by omega)]
    · rw [if_neg h2, if_neg (by omega)]

theorem Filled.zero (d : Device) (start : Nat) (b : Block) : d.Filled start 0 b d :=
  ⟨Iff.rfl, rfl, fun _ => (if_neg (by omega)).symm⟩

/-- Writing copies of a block. -/
theorem yields_write (h : d.Covers start count) (b : Block) :
    Yields d.Reliable (write start (b.repeated count)) d fun _ d' => d.Filled start count b d' := by
  have hsize : (b.repeated count).size = count * blockSize := b.size_repeated count
  have hlen : max d.image.size (start * blockSize + count * blockSize) = d.image.size := by
    have hle := h.le_size
    rw [Nat.add_mul] at hle
    exact Nat.max_eq_left hle
  have hkeep : (d.image.write start (b.repeated count)).size = d.image.size := by
    rw [Image.write]
    split
    · simp
    · rw [hsize]
      exact hlen
  unfold Yields write
  cases hcheck : d.checkWrite start (b.repeated count) with
  | error e =>
    intro hr
    simp [h.checkWrite_eq hr.size_lt hsize, hr.faults, FaultPlan.none] at hcheck
  | ok =>
    refine ⟨?_, hkeep, ?_⟩
    · exact ⟨fun hr => ⟨hr.faults, fun hg => Nat.lt_of_le_of_lt (Nat.le_of_eq hkeep.symm) (hr.size_lt hg)⟩,
        fun hr => ⟨hr.faults, fun hg => Nat.lt_of_le_of_lt (Nat.le_of_eq hkeep) (hr.size_lt hg)⟩⟩
    · intro n
      change (d.image.write start (b.repeated count)).block n = _
      rw [Image.block_write, hsize, Nat.mul_div_cancel _ (by decide)]
      split
      · exact b.blockOf_repeated (by omega)
      · rfl

theorem yields_writeBlock (h : d.Holds start) (b : Block) :
    Yields d.Reliable (writeBlock start b) d fun _ d' => d.Filled start 1 b d' := by
  have hone : b.bytes = b.repeated 1 := by simp [Block.repeated]
  rw [writeBlock, hone]
  exact yields_write h b

end Device

namespace Layout

open Device

theorem yields_batches {d : Device} {start : Nat} (b : Block) (m : Nat)
    (h : d.Covers start (m * formatBatch)) :
    Yields d.Reliable ((List.range m).forM fun k =>
        Device.write (start + k * formatBatch) (b.repeated formatBatch)) d
      fun _ d' => d.Filled start (m * formatBatch) b d' := by
  rw [List.forM_eq_forM]
  induction m with
  | zero =>
    rw [Nat.zero_mul]
    exact .pure (.zero d start b)
  | succ m ih =>
    rw [Nat.succ_mul] at h ⊢
    rw [List.range_succ, List.forM_append, List.forM_cons]
    refine (ih (h.within (by omega))).bind ?_
    intro _ d' hd'
    rw [List.forM_nil, bind_pure_unit, ← hd'.reliable]
    have hcovers := hd'.covers (h.within (Nat.le_of_eq (Nat.add_assoc _ _ _)))
    exact (yields_write hcovers b).mono fun _ _ hlast => hd'.append hlast

theorem yields_fillRegion {d : Device} {start count : Nat} (h : d.Covers start count) (b : Block) :
    Yields d.Reliable (fillRegion start count b) d fun _ d' => d.Filled start count b d' := by
  obtain ⟨m, hm⟩ : ∃ m, m = count / formatBatch := ⟨_, rfl⟩
  obtain ⟨n, hn⟩ : ∃ n, n = count % formatBatch := ⟨_, rfl⟩
  have hsplit : m * formatBatch + n = count := by
    rw [hm, hn]
    exact Nat.div_add_mod' count formatBatch
  have hbefore : d.Covers start (m * formatBatch) := h.within (by omega)
  have hafter : d.Covers (start + m * formatBatch) n := h.within (by omega)
  have hrest {d' : Device} (hd' : d.Filled start (m * formatBatch) b d') :
      Yields d.Reliable (if n ≠ 0 then Device.write (start + m * formatBatch) (b.repeated n)
        else pure ()) d' fun _ d'' => d.Filled start count b d'' := by
    rw [← hsplit]
    by_cases h0 : n = 0
    · rw [if_neg (not_not_intro h0), h0, Nat.add_zero]
      exact .pure hd'
    · rw [if_pos h0, ← hd'.reliable]
      exact (yields_write (hd'.covers hafter) b).mono fun _ d'' hd'' => hd'.append hd''
  rw [fillRegion, ← hm, ← hn]
  by_cases h0 : m = 0
  · rw [if_neg (not_not_intro h0)]
    refine hrest ?_
    rw [h0, Nat.zero_mul]
    exact .zero d start b
  · rw [if_pos h0]
    exact (yields_batches b m hbefore).bind fun _ d' hd' => hrest hd'

/-- What formatting leaves on a device. -/
structure Empty (l : Layout) (d d' : Device) : Prop where
  reliable : d'.Reliable ↔ d.Reliable
  size : d'.size = d.size
  superblock : d'.image.block 0 = .ofBytes l.superblock.encode
  bitmap : ∀ n, l.superblock.bitmapStart ≤ n → n < l.superblock.keysStart →
    d'.image.block n = .zero
  keys : ∀ n, l.superblock.keysStart ≤ n → n < l.superblock.dedupStart →
    d'.image.block n = .ofRecord KeyEntry.free.toRecord
  dedup : ∀ n, l.superblock.dedupStart ≤ n → n < l.superblock.dataStart →
    d'.image.block n = .ofRecord DedupEntry.free.toRecord
  data : ∀ n, l.superblock.dataStart ≤ n → n < l.superblock.dataStart + l.slots →
    d'.image.block n = .zero

variable (l : Layout)

theorem dataStart_add_slots :
    l.superblock.volumeSize.toNat / blockSize - l.superblock.dataStart = l.slots := by
  rw [volumeSize_superblock, size_eq, Superblock.dataStart, dataOffset_superblock,
    Nat.add_mul_div_right _ _ (by decide), Nat.add_sub_cancel_left]

/-- The writes of formatting: every region, between two writes of block 0. -/
def writeRegions : DeviceM Superblock := do
  Device.writeBlock 0 .zero
  fillRegion l.superblock.bitmapStart (l.superblock.keysStart - l.superblock.bitmapStart) .zero
  fillRegion l.superblock.keysStart (l.superblock.dedupStart - l.superblock.keysStart)
    (.ofRecord KeyEntry.free.toRecord)
  fillRegion l.superblock.dedupStart l.superblock.dedupBlocks (.ofRecord DedupEntry.free.toRecord)
  fillRegion l.superblock.dataStart
    (l.superblock.volumeSize.toNat / blockSize - l.superblock.dataStart) .zero
  Device.writeBlock 0 (.ofBytes l.superblock.encode)
  return l.superblock

/-- A device that is too small is refused before anything is written. -/
theorem format_apply (d : Device) :
    l.format d = if d.size < l.size then .error .noSpace d else l.writeRegions d := by
  change (if d.size < l.superblock.volumeSize.toNat then throw .noSpace else l.writeRegions :
    DeviceM Superblock) d = _
  rw [volumeSize_superblock]
  split <;> rfl

/-- On a device that is large enough, formatting writes every region. -/
theorem yields_format {d : Device} (h : l.size ≤ d.size) :
    Yields d.Reliable l.format d fun sb d' => sb = l.superblock ∧ l.Empty d d' := by
  have hfits := l.fits_superblock h
  have h0 := hfits.one_le_bitmapStart
  have h1 := hfits.bitmap_le_keysStart
  have h2 := hfits.keys_le_dedupStart hfits.slots_pos
  have h3 := hfits.dedupStart_le_dataStart
  have h4 := l.dedupStart_superblock
  rw [Nat.zero_div] at h2
  have hcovers {start count : Nat} (hc : start + count ≤ l.superblock.dataStart + l.slots) :
      d.Covers start count := hfits.covers (l.slots_superblock.symm ▸ hc)
  unfold Yields
  rw [format_apply, if_neg (Nat.not_lt.2 h), writeRegions, dataStart_add_slots, dedupBlocks_superblock]
  change Yields d.Reliable _ d _
  refine (yields_writeBlock (hcovers (by omega)) .zero).bind ?_
  intro _ d₁ hd₁
  rw [← hd₁.reliable]
  refine (yields_fillRegion (hd₁.covers (hcovers (by omega))) .zero).bind ?_
  intro _ d₂ hd₂
  rw [← hd₂.reliable]
  refine (yields_fillRegion (hd₂.covers (hd₁.covers (hcovers (by omega)))) _).bind
    fun _ d₃ hd₃ => ?_
  rw [← hd₃.reliable]
  refine (yields_fillRegion (hd₃.covers (hd₂.covers (hd₁.covers (hcovers (by omega))))) _).bind
    fun _ d₄ hd₄ => ?_
  rw [← hd₄.reliable]
  refine (yields_fillRegion (hd₄.covers (hd₃.covers (hd₂.covers (hd₁.covers (hcovers
    (Nat.le_refl _)))))) .zero).bind fun _ d₅ hd₅ => ?_
  rw [← hd₅.reliable]
  refine (yields_writeBlock (hd₅.covers (hd₄.covers (hd₃.covers (hd₂.covers (hd₁.covers (hcovers
    (by omega))))))) _).bind fun _ d₆ hd₆ => .pure ⟨rfl, ?_⟩
  refine ⟨?_, ?_, ?_, ?_, ?_, ?_, ?_⟩
  · rw [hd₆.reliable, hd₅.reliable, hd₄.reliable, hd₃.reliable, hd₂.reliable, hd₁.reliable]
  · rw [hd₆.size, hd₅.size, hd₄.size, hd₃.size, hd₂.size, hd₁.size]
  · rw [hd₆.block, if_pos (by omega)]
  · intro n hn hlt
    rw [hd₆.block, if_neg (by omega), hd₅.block, if_neg (by omega), hd₄.block, if_neg (by omega),
      hd₃.block, if_neg (by omega), hd₂.block, if_pos (by omega)]
  · intro n hn hlt
    rw [hd₆.block, if_neg (by omega), hd₅.block, if_neg (by omega), hd₄.block, if_neg (by omega),
      hd₃.block, if_pos (by omega)]
  · intro n hn hlt
    rw [hd₆.block, if_neg (by omega), hd₅.block, if_neg (by omega), hd₄.block, if_pos (by omega)]
  · intro n hn hlt
    rw [hd₆.block, if_neg (by omega), hd₅.block, if_pos (by omega)]

/-- What was formatted holds nothing. -/
theorem Empty.view_eq {l : Layout} {d d' : Device} (h : l.Empty d d') (hsize : l.size ≤ d.size) :
    l.superblock.view d'.image = .blank := by
  have hfits := l.fits_superblock hsize
  have hmod (n : Nat) : n % recordsPerBlock < recordsPerBlock := Nat.mod_lt _ (by decide)
  refine View.ext ?_ ?_ ?_ ?_
  · intro s
    by_cases hs : s < l.superblock.slots
    · simp only [Superblock.view, hs, if_true, View.blank]
      rw [h.keys _ (Nat.le_add_right _ _) (hfits.keys_le_dedupStart hs),
        Block.record_ofRecord _ (hmod s), KeyEntry.ofRecord_toRecord]
    · simp [Superblock.view, hs, View.blank]
  · intro i
    by_cases hi : i < l.superblock.dedupCapacity
    · simp only [Superblock.view, hi, if_true, View.blank]
      rw [h.dedup _ (Nat.le_add_right _ _) (hfits.dedup_lt_dataStart hi),
        Block.record_ofRecord _ (hmod i), DedupEntry.ofRecord_toRecord]
    · simp [Superblock.view, hi, View.blank]
  · intro s
    have hbyte : byteAt (l.superblock.bitmapOf d'.image) (s / 8) = 0 := by
      rw [Superblock.bitmapOf, Image.byteAt_read]
      split
      · rename_i hlt
        have hdiv : s / 8 / blockSize < l.superblock.bitmapBlocks :=
          (Nat.div_lt_iff_lt_mul (by decide)).2 hlt
        have hend := hfits.bitmap_le_keysStart
        have hpos := Image.byte_mul_add d'.image (l.superblock.bitmapStart + s / 8 / blockSize)
          (Nat.mod_lt (s / 8) (show 0 < blockSize by decide))
        rw [Nat.add_mul, Nat.add_assoc, Nat.div_add_mod'] at hpos
        rw [hpos, h.bitmap _ (Nat.le_add_right _ _) (by omega), Block.zero, byteAt_zeros]
      · rfl
    simp [Superblock.view, View.blank, testSlot, hbyte]
  · intro s
    by_cases hs : s < l.superblock.slots
    · have hlt := hs
      rw [l.slots_superblock] at hlt
      simp only [Superblock.view, hs, if_true, View.blank]
      exact h.data _ (Nat.le_add_right _ _) (Nat.add_lt_add_left hlt _)
    · simp [Superblock.view, hs, View.blank]

end Layout

namespace Volume

section

variable {l : Layout} {d d' : Device}

theorem format_of_ok {sb : Superblock} (h : l.format d = .ok sb d') : format l d = mount false d' := by
  simp [format, discard, Functor.discard, Functor.mapConst, EStateM.map, bind, EStateM.bind, h]

theorem format_of_error {e : StoreError} (h : l.format d = .error e d') : format l d = .error e d' := by
  simp [format, discard, Functor.discard, Functor.mapConst, EStateM.map, bind, EStateM.bind, h]

theorem format_of_small (hsize : d.size < l.size) : format l d = .error .noSpace d :=
  format_of_error (by rw [l.format_apply, if_pos hsize])

end

/-- Formatting yields an empty volume on the device, unless the device is too small or fails. -/
theorem format_cases (l : Layout) (d : Device) :
    (∃ v, format l d = .ok v v.device ∧
        v.Shows l.superblock d.Reliable .blank (List.range l.slots)) ∨
      (∃ e d', format l d = .error e d') ∧ ¬ (d.Reliable ∧ l.size ≤ d.size) := by
  by_cases hsize : l.size ≤ d.size
  · have hlayout := l.yields_format hsize
    unfold Device.Yields at hlayout
    cases hrun : l.format d with
    | error e d' =>
      rw [hrun] at hlayout
      exact .inr ⟨⟨e, d', format_of_error hrun⟩, fun hr => hlayout hr.1⟩
    | ok sb d' =>
      rw [hrun] at hlayout
      obtain ⟨rfl, hempty⟩ := hlayout
      have hview := hempty.view_eq hsize
      have hstored : Superblock.decode (d'.image.block 0).bytes = .ok l.superblock := by
        rw [hempty.superblock]
        exact Superblock.decode_ofBytes_encode _
      have hfits : l.superblock.Fits d'.size := l.fits_superblock (hempty.size ▸ hsize)
      rw [format_of_ok hrun]
      rcases attach_cases hstored hfits with ⟨v, hv, hdevice, hshows⟩ | ⟨⟨e, he⟩, hr⟩
      · left
        refine ⟨v, hdevice.symm ▸ mountVisiting_of_attach hv, ?_⟩
        have hclear : clearSlots l.superblock (l.superblock.view d'.image) = List.range l.slots := by
          rw [clearSlots, hview, l.slots_superblock]
          exact List.filter_eq_self.2 fun _ _ => rfl
        rw [hclear, hview] at hshows
        exact ⟨hshows.mounted, hshows.superblock, hshows.reliable.trans hempty.reliable, hshows.view,
          hshows.free⟩
      · right
        exact ⟨⟨e, d', by simp [mount, mountVisiting, he]⟩, fun hrs => hr (hempty.reliable.2 hrs.1)⟩
  · exact .inr ⟨⟨.noSpace, d, format_of_small (Nat.lt_of_not_le hsize)⟩, fun hrs => hsize hrs.2⟩

/-- A formatted volume shows an empty view. -/
theorem shows_of_format {l : Layout} {d d' : Device} {v : Volume} (h : format l d = .ok v d') :
    v.Shows l.superblock d.Reliable .blank (List.range l.slots) := by
  rcases format_cases l d with ⟨u, hu, hshows⟩ | ⟨⟨e, x, he⟩, -⟩
  · rw [h] at hu
    obtain rfl : v = u := by cases hu; rfl
    exact hshows
  · rw [h] at he
    cases he

theorem shows_of_format_reliable {l : Layout} {d d' : Device} {v : Volume} (hd : d.Reliable)
    (h : format l d = .ok v d') : v.Shows l.superblock True .blank (List.range l.slots) := by
  have hv := shows_of_format h
  exact ⟨hv.mounted, hv.superblock, hv.reliable.trans (iff_true_intro hd), hv.view, hv.free⟩

/-- A blank device of the size of the volume can be formatted. -/
theorem exists_format_blank (l : Layout) :
    ∃ v, format l (.ofImage (.blank l.size)) = .ok v v.device ∧
      v.Shows l.superblock True .blank (List.range l.slots) := by
  have hd := Device.reliable_ofImage (.blank l.size)
  rcases format_cases l (.ofImage (.blank l.size)) with ⟨v, hv, -⟩ | ⟨-, hfail⟩
  · exact ⟨v, hv, shows_of_format_reliable hd hv⟩
  · exact absurd ⟨hd, Nat.le_refl _⟩ hfail

/-- Mounting a formatted device changes nothing. -/
theorem device_of_format {l : Layout} {d d' : Device} {v : Volume} (h : format l d = .ok v d') :
    v.device = d' := by
  rcases format_cases l d with ⟨u, hu, -⟩ | ⟨⟨e, x, he⟩, -⟩
  · rw [h] at hu
    cases hu
    rfl
  · rw [h] at he
    cases he

end Volume

end BlockStore
