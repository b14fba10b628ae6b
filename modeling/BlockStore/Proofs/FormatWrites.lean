import BlockStore.Proofs.Faultless
import BlockStore.Proofs.Margin
import BlockStore.Proofs.Queries
import BlockStore.Proofs.Remount

/-!
# Formatting, write by write

Formatting is a fixed list of writes, which does not depend on what the device holds. Block 0 comes first
and last. In between the regions are written in batches, and laid end to end the batches are the blocks
from block 1 to the end of the volume, each of them once.

So wherever formatting stops before its last write, block 0 is zero as soon as the first write is done,
and what is on the device is not taken for a volume. When it does not stop, every block of the volume has
been written, and none behind it.

## Main definitions

* `Device.writeAll`, `Device.Took`: writes in order, and the device after some of them.
* `Layout.writes`: the writes of formatting.
* `Layout.Fresh`, `Volume.Vacant`: what a complete format leaves, in bytes and in answers.

## Main results

* `Device.writeAll_cases`: what has been written is a prefix of the list.
* `Layout.tiles_regionWrites`, `Layout.tiles_innerWrites`: the batches laid end to end.
* `Layout.format_eq`: formatting is that list of writes.
* `Volume.formatsSafely`: what formatting leaves when it ends, and when it is cut short.
-/

namespace BlockStore

/-! ### Lists of writes -/

namespace Write

/-- The blocks written, in order. -/
def targets (w : Write) : List Nat := List.range' w.block w.count

end Write

namespace Device

/-- Performs writes, one after the other. -/
def writeAll : List Write → DeviceM Unit
  | [] => return
  | w :: ws => do
    write w.block w.data
    writeAll ws

/-- The device `d'` is `d` after these writes, and no others, have been acknowledged. -/
structure Took (d : Device) (ws : List Write) (d' : Device) : Prop where
  image : d'.image = replay d.image ws
  log : d'.log.toList = d.log.toList ++ ws

variable {d d' : Device} {ws ws' : List Write} {w : Write} {n : Nat}

theorem replay_cons (im : Image) (w : Write) (ws : List Write) :
    replay im (w :: ws) = replay (im.write w.block w.data) ws := rfl

/-- A block that is not among the targets keeps its contents. -/
theorem block_replay_of_not_mem {im : Image} (h : ∀ w ∈ ws, n ∉ w.targets) :
    (replay im ws).block n = im.block n := by
  induction ws generalizing im with
  | nil => rfl
  | cons w ws ih =>
    have hw := h w List.mem_cons_self
    rw [Write.targets, List.mem_range'_1] at hw
    rw [replay_cons, ih fun x hx => h x (List.mem_cons_of_mem _ hx), Image.block_write]
    exact if_neg hw

theorem Took.nil (d : Device) : d.Took [] d := ⟨rfl, (List.append_nil _).symm⟩

theorem Took.cons {d₁ : Device} (h : d.Took [w] d₁) (h' : d₁.Took ws d') : d.Took (w :: ws) d' where
  image := by rw [h'.image, h.image]; rfl
  log := by rw [h'.log, h.log, List.append_assoc]; rfl

/-- A write is acknowledged and done, or nothing is written. -/
theorem write_cases (w : Write) (d : Device) :
    (∃ d', write w.block w.data d = .ok () d' ∧ d.Took [w] d') ∨
      ∃ e d', write w.block w.data d = .error e d' ∧ d.Took [] d' := by
  rw [write]
  cases d.checkWrite w.block w.data with
  | error e => exact .inr ⟨_, _, rfl, rfl, (List.append_nil _).symm⟩
  | ok => exact .inl ⟨_, rfl, rfl, Array.toList_push⟩

/-- The writes are all done, or those before one that fails. -/
theorem writeAll_cases (ws : List Write) (d : Device) :
    (∃ d', writeAll ws d = .ok () d' ∧ d.Took ws d') ∨
      ∃ e d' k, k < ws.length ∧ writeAll ws d = .error e d' ∧ d.Took (ws.take k) d' := by
  induction ws generalizing d with
  | nil => exact .inl ⟨d, rfl, .nil d⟩
  | cons w ws ih =>
    rcases write_cases w d with ⟨d₁, hfirst, h₁⟩ | ⟨e, d', herror, h'⟩
    · rcases ih d₁ with ⟨d', hrest, h'⟩ | ⟨e, d', k, hk, hrest, h'⟩
      · left
        refine ⟨d', ?_, h₁.cons h'⟩
        simp only [writeAll, bind, EStateM.bind, hfirst, hrest]
      · right
        refine ⟨e, d', k + 1, Nat.succ_lt_succ hk, ?_, h₁.cons h'⟩
        simp only [writeAll, bind, EStateM.bind, hfirst, hrest]
    · right
      refine ⟨e, d', 0, Nat.succ_pos _, ?_, h'⟩
      simp only [writeAll, bind, EStateM.bind, herror]

theorem writeAll_append (ws ws' : List Write) :
    writeAll (ws ++ ws') = writeAll ws >>= fun _ => writeAll ws' := by
  induction ws with
  | nil => rfl
  | cons w ws ih =>
    rw [List.cons_append, writeAll, ih, writeAll, bind_assoc]

theorem writeAll_singleton (w : Write) : writeAll [w] = write w.block w.data := by
  rw [writeAll, writeAll]
  exact bind_pure_unit

theorem writeAll_map {α : Type} (f : α → Write) (xs : List α) :
    writeAll (xs.map f) = xs.forM fun x => write (f x).block (f x).data := by
  induction xs with
  | nil => rfl
  | cons x xs ih =>
    rw [List.map_cons, writeAll, ih]
    rfl

end Device

/-! ### The writes of formatting -/

namespace Layout

open Device

/-- The writes that fill a region with copies of a block. -/
def regionWrites (start count : Nat) (b : Block) : List Write :=
  (List.range (count / formatBatch)).map
      (fun k => ⟨start + k * formatBatch, b.repeated formatBatch⟩) ++
    if count % formatBatch ≠ 0 then
      [⟨start + count / formatBatch * formatBatch, b.repeated (count % formatBatch)⟩]
    else []

theorem fillRegion_eq (start count : Nat) (b : Block) :
    fillRegion start count b = writeAll (regionWrites start count b) := by
  have hrest : writeAll (if count % formatBatch ≠ 0 then
        [⟨start + count / formatBatch * formatBatch, b.repeated (count % formatBatch)⟩] else []) =
      if count % formatBatch ≠ 0 then
        Device.write (start + count / formatBatch * formatBatch) (b.repeated (count % formatBatch))
      else pure () := by
    rw [apply_ite writeAll, writeAll_singleton]
    rfl
  rw [regionWrites, writeAll_append, writeAll_map, hrest, fillRegion]
  by_cases hbatches : count / formatBatch = 0
  · simp only [hbatches, ne_eq, not_true_eq_false, if_false]
    rfl
  · simp only [hbatches, ne_eq, not_false_eq_true, if_true]

theorem targets_repeated (start count : Nat) (b : Block) :
    Write.targets ⟨start, b.repeated count⟩ = List.range' start count := by
  rw [Write.targets, Write.count, Block.size_repeated, Nat.mul_div_cancel _ (by decide)]

/-- Whole batches, laid end to end. -/
theorem tiles_batches (start m : Nat) (b : Block) :
    ((List.range m).map fun k => (⟨start + k * formatBatch, b.repeated formatBatch⟩ : Write)).flatMap
      Write.targets = List.range' start (m * formatBatch) := by
  induction m with
  | zero => rw [Nat.zero_mul]; rfl
  | succ m ih =>
    rw [List.range_succ, List.map_append, List.flatMap_append, ih, List.map_singleton,
      List.flatMap_singleton, targets_repeated, Nat.succ_mul, List.range'_append_1]

/-- The writes that fill a region, laid end to end, are its blocks. -/
theorem tiles_regionWrites (start count : Nat) (b : Block) :
    (regionWrites start count b).flatMap Write.targets = List.range' start count := by
  obtain ⟨m, hm⟩ : ∃ m, m = count / formatBatch := ⟨_, rfl⟩
  obtain ⟨n, hn⟩ : ∃ n, n = count % formatBatch := ⟨_, rfl⟩
  have hsplit : m * formatBatch + n = count := by
    rw [hm, hn]
    exact Nat.div_add_mod' count formatBatch
  rw [regionWrites, ← hm, ← hn, List.flatMap_append, tiles_batches, ← hsplit]
  by_cases h0 : n = 0
  · rw [if_neg (not_not_intro h0), h0, List.flatMap_nil, List.append_nil, Nat.add_zero]
  · rw [if_pos h0, List.flatMap_singleton, targets_repeated, List.range'_append_1]

variable (l : Layout)

/-- The writes of formatting between the first and the last one: bitmap, key table, dedup table and
data blocks. -/
def innerWrites : List Write :=
  let sb := l.superblock
  regionWrites sb.bitmapStart (sb.keysStart - sb.bitmapStart) .zero ++
    regionWrites sb.keysStart (sb.dedupStart - sb.keysStart) (.ofRecord KeyEntry.free.toRecord) ++
    regionWrites sb.dedupStart sb.dedupBlocks (.ofRecord DedupEntry.free.toRecord) ++
    regionWrites sb.dataStart (sb.volumeSize.toNat / blockSize - sb.dataStart) .zero

/-- The writes of formatting. -/
def writes : List Write :=
  ⟨0, Block.zero.bytes⟩ :: (l.innerWrites ++ [⟨0, (Block.ofBytes l.superblock.encode).bytes⟩])

/-- Formatting is a list of writes, for which the device must be large enough. -/
theorem format_eq (d : Device) :
    l.format d =
      if d.size < l.size then .error .noSpace d
      else (do
        writeAll l.writes
        return l.superblock : DeviceM Superblock) d := by
  rw [format_apply]
  split
  · rfl
  · simp only [writeRegions, writes, innerWrites, writeAll, writeAll_append, fillRegion_eq, bind_assoc,
      pure_bind, Device.writeBlock, volumeSize_superblock]

/-- The number of blocks of the volume. -/
def totalBlocks : Nat := l.superblock.dataStart + l.slots

theorem size_eq_totalBlocks : l.size = l.totalBlocks * blockSize := by
  rw [totalBlocks, Nat.add_mul, Superblock.dataStart, dataOffset_superblock, size_eq]
  congr 1
  simp only [dataOffset, keysOffset, paddedSize, blockSize]
  omega

theorem range'_append_of_le {a b c : Nat} (hab : a ≤ b) (hbc : b ≤ c) :
    List.range' a (b - a) ++ List.range' b (c - b) = List.range' a (c - a) := by
  have hstart : List.range' b (c - b) = List.range' (a + (b - a)) (c - b) := by
    rw [Nat.add_sub_cancel' hab]
  rw [hstart, List.range'_append_1]
  congr 1
  omega

/-- The writes between the first and the last one, laid end to end, are the blocks behind block 0. -/
theorem tiles_innerWrites :
    l.innerWrites.flatMap Write.targets = List.range' 1 (l.totalBlocks - 1) := by
  have hfits := l.fits_superblock (Nat.le_refl _)
  have h1 := hfits.bitmap_le_keysStart
  have h2 := hfits.keys_le_dedupStart hfits.slots_pos
  have h3 := hfits.dedupStart_le_dataStart
  rw [Nat.zero_div] at h2
  have hone : l.superblock.bitmapStart = 1 := by
    rw [Superblock.bitmapStart, bitmapOffset_superblock]
    rfl
  have hdedup : l.superblock.dedupBlocks = l.superblock.dataStart - l.superblock.dedupStart := by
    rw [dedupBlocks_superblock, ← dedupStart_superblock, Nat.add_sub_cancel_left]
  have hdata : l.slots = l.totalBlocks - l.superblock.dataStart :=
    (Nat.add_sub_cancel_left ..).symm
  have htotal : l.superblock.dataStart ≤ l.totalBlocks := Nat.le_add_right _ _
  rw [innerWrites, List.flatMap_append, List.flatMap_append, List.flatMap_append, tiles_regionWrites,
    tiles_regionWrites, tiles_regionWrites, tiles_regionWrites, dataStart_add_slots, hdedup, hdata, hone]
  rw [hone] at h1
  rw [range'_append_of_le (by omega) (by omega), range'_append_of_le (by omega) (by omega),
    range'_append_of_le (by omega) htotal]

/-- A write between the first and the last one stays behind block 0 and inside the volume. -/
theorem mem_targets_innerWrites {w : Write} (hw : w ∈ l.innerWrites) {n : Nat} (hn : n ∈ w.targets) :
    1 ≤ n ∧ n < l.totalBlocks := by
  have hmem : n ∈ l.innerWrites.flatMap Write.targets := List.mem_flatMap.2 ⟨w, hw, hn⟩
  rw [tiles_innerWrites, List.mem_range'_1] at hmem
  omega

theorem targets_block (b : Block) : Write.targets ⟨0, b.bytes⟩ = [0] := by
  rw [Write.targets, Write.count, b.size_eq, Nat.div_self (by decide)]
  rfl

/-- No write leaves the volume. -/
theorem lt_totalBlocks_of_mem {w : Write} (hw : w ∈ l.writes) {n : Nat} (hn : n ∈ w.targets) :
    n < l.totalBlocks := by
  have hpos : 0 < l.totalBlocks := by
    have := l.slots_pos
    rw [totalBlocks]
    omega
  rw [writes, List.mem_cons, List.mem_append, List.mem_singleton] at hw
  rcases hw with rfl | hw | rfl
  · rw [targets_block, List.mem_singleton] at hn
    omega
  · exact (l.mem_targets_innerWrites hw hn).2
  · rw [targets_block, List.mem_singleton] at hn
    omega

theorem length_writes : l.writes.length = l.innerWrites.length + 2 := by
  rw [writes, List.length_cons, List.length_append, List.length_singleton]

/-- After the first write and before the last one, block 0 is zero. -/
theorem block_zero_of_cut {k : Nat} (hpos : 0 < k) (hk : k < l.writes.length) (im : Image) :
    (replay im (l.writes.take k)).block 0 = .zero := by
  obtain ⟨j, rfl⟩ := Nat.exists_eq_succ_of_ne_zero (Nat.ne_of_gt hpos)
  have hj : j ≤ l.innerWrites.length := by
    rw [length_writes] at hk
    omega
  rw [writes, List.take_succ_cons, List.take_append_of_le_length hj, replay_cons,
    block_replay_of_not_mem, Image.block_write_bytes, if_pos rfl]
  intro w hw hzero
  have := (l.mem_targets_innerWrites (List.mem_of_mem_take hw) hzero).1
  omega

/-- Behind the volume no prefix of the writes changes anything. -/
theorem byte_replay_of_le {i : Nat} (hi : l.size ≤ i) (k : Nat) (im : Image) :
    (replay im (l.writes.take k)).byte i = im.byte i := by
  have hblock : l.totalBlocks ≤ i / blockSize := by
    rw [size_eq_totalBlocks] at hi
    exact (Nat.le_div_iff_mul_le (by decide)).2 hi
  rw [Image.byte, block_replay_of_not_mem, Image.byte]
  intro w hw htarget
  have := l.lt_totalBlocks_of_mem (List.mem_of_mem_take hw) htarget
  omega

end Layout

/-! ### What is not a volume -/

theorem leNat_zeros (m i n : Nat) : leNat (zeros m) i n = 0 := by
  induction n generalizing i with
  | zero => rfl
  | succ n ih =>
    rw [leNat, ih, byteAt_zeros]
    rfl

theorem Superblock.magic_of_decode {b : ByteArray} {sb : Superblock} (h : decode b = .ok sb) :
    sb.magic = UInt16.ofNat (leNat b 0 2) := by
  rw [decode] at h
  split at h
  · cases h
  · cases h
    rfl

/-- A block of zeros has no magic number. -/
theorem Superblock.magic_of_decode_zero {sb : Superblock} (h : decode Block.zero.bytes = .ok sb) :
    sb.magic ≠ magicNumber := by
  rw [magic_of_decode h, Block.zero, leNat_zeros]
  decide

namespace Volume

/-- The device is not taken for a volume, and cannot be mounted. -/
def Dead (d : Device) : Prop :=
  Superblock.probe d = false ∧
    ∀ (visit : List SharedBlock → List SharedBlock) (repair : Bool),
      ∃ e, mountVisiting visit repair d = .error e d

theorem dead_of_block_zero {d : Device} (h : d.image.block 0 = .zero) : Dead d := by
  constructor
  · rw [Superblock.probe]
    cases hread : d.readBlock 0 with
    | error e => rfl
    | ok b =>
      obtain rfl := Device.eq_of_readBlock hread
      rw [h]
      cases hdecode : Superblock.decode Block.zero.bytes with
      | error e => simp only [hdecode]
      | ok sb =>
        simp only [hdecode]
        exact beq_false_of_ne (Superblock.magic_of_decode_zero hdecode)
  · intro visit repair
    rw [mountVisiting]
    cases hattach : attach d with
    | error e => exact ⟨e, rfl⟩
    | ok v =>
      obtain ⟨sb, hdecode, hfits⟩ := exists_of_attach hattach
      rw [h] at hdecode
      exact absurd hfits.magic (Superblock.magic_of_decode_zero hdecode)

end Volume

/-! ### What formatting leaves -/

namespace Layout

/-- What the image of a formatted device holds, where the image of `d` was before: the volume is empty
to the last byte, and behind it nothing has changed. -/
structure Fresh (l : Layout) (d : Device) (im : Image) : Prop where
  size : im.size = d.size
  superblock : im.block 0 = .ofBytes l.superblock.encode
  /-- The bitmap is zero. -/
  bitmap : ∀ i, l.superblock.bitmapOffset.toNat ≤ i → i < l.superblock.keysOffset.toNat → im.byte i = 0
  /-- Every key entry is the encoding of a free one. -/
  keys : ∀ s < l.slots, ∀ j < recordSize,
    im.byte (l.superblock.keysOffset.toNat + s * recordSize + j) = byteAt KeyEntry.free.encode j
  /-- So is every dedup entry. -/
  shared : ∀ i < l.superblock.dedupCapacity, ∀ j < recordSize,
    im.byte (l.superblock.dedupStart * blockSize + i * recordSize + j) =
      byteAt DedupEntry.free.encode j
  /-- Every data block is zero. -/
  data : ∀ s < l.slots, im.block (l.superblock.dataBlock s) = .zero
  /-- Bytes behind the volume are as before. -/
  behind : ∀ i, l.size ≤ i → im.byte i = d.image.byte i

/-- The bytes of one record of a block that is full of copies of it. -/
theorem byte_of_block_eq_ofRecord {im : Image} {n i j : Nat} {rec : Record}
    (h : im.block (n + i / recordsPerBlock) = .ofRecord rec) (hj : j < recordSize) :
    im.byte (n * blockSize + i * recordSize + j) = byteAt rec.encode j := by
  have hmod : i % recordsPerBlock < recordsPerBlock := Nat.mod_lt _ (by decide)
  have hrecord : Record.decode (Block.ofRecord rec).bytes (i % recordsPerBlock * recordSize) =
      Record.decode rec.encode 0 :=
    (Block.record_ofRecord rec hmod).trans (Record.decode_encode rec).symm
  have hlt : i % recordsPerBlock * recordSize + j < blockSize := by
    simp only [recordsPerBlock, recordSize, blockSize] at *
    omega
  have hposition : n * blockSize + i * recordSize + j =
      (n + i / recordsPerBlock) * blockSize + (i % recordsPerBlock * recordSize + j) := by
    simp only [recordsPerBlock, recordSize, blockSize] at *
    omega
  rw [hposition, Image.byte_mul_add _ _ hlt, h, Record.byteAt_eq_of_decode hrecord hj, Nat.zero_add]

theorem Empty.fresh {l : Layout} {d d' : Device} (h : l.Empty d d') (hsize : l.size ≤ d.size)
    (hbehind : ∀ i, l.size ≤ i → d'.image.byte i = d.image.byte i) : l.Fresh d d'.image := by
  have hfits := l.fits_superblock hsize
  have hbitmap : l.superblock.bitmapOffset.toNat = l.superblock.bitmapStart * blockSize :=
    (Nat.div_mul_cancel (Nat.dvd_of_mod_eq_zero hfits.bitmap_aligned)).symm
  have hkeys : l.superblock.keysOffset.toNat = l.superblock.keysStart * blockSize :=
    (Nat.div_mul_cancel (Nat.dvd_of_mod_eq_zero hfits.keys_aligned)).symm
  refine ⟨h.size, h.superblock, fun i hle hlt => ?_, fun s hs j hj => ?_, fun i hi j hj => ?_,
    fun s hs => ?_, hbehind⟩
  · rw [hbitmap] at hle
    rw [hkeys] at hlt
    rw [Image.byte, h.bitmap _ ((Nat.le_div_iff_mul_le (by decide)).2 hle)
      ((Nat.div_lt_iff_lt_mul (by decide)).2 hlt)]
    exact byteAt_zeros _ _
  · rw [hkeys]
    refine byte_of_block_eq_ofRecord (h.keys _ (Nat.le_add_right _ _) ?_) hj
    exact hfits.keys_le_dedupStart (l.slots_superblock ▸ hs)
  · exact byte_of_block_eq_ofRecord (h.dedup _ (Nat.le_add_right _ _) (hfits.dedup_lt_dataStart hi)) hj
  · exact h.data _ (Nat.le_add_right _ _) (Nat.add_lt_add_left hs _)

end Layout

namespace Volume

/-- All slots of the volume are free, no key is stored, and there is nothing that a check could find. -/
structure Vacant (v : Volume) : Prop where
  freeCount : v.freeCount = v.superblock.slots
  list : v.list = .ok []
  clean : v.ChecksClean

theorem Shows.vacant {sb : Superblock} {r : Prop} {v : Volume} {free : List Nat}
    (h : v.Shows sb r .blank free) (hr : r) : v.Vacant where
  freeCount := by
    rw [h.freeCount_eq, ← h.free_perm.length_eq, clearSlots_blank, List.length_range, h.superblock]
  list := by
    have hidle (s : Nat) : ¬ View.blank.Active s := by
      change ¬ KeyEntry.free.isActive = true
      decide
    rw [h.list_eq hr, View.keyList, List.filter_eq_nil_iff.2 fun s _ => by simp [hidle], List.map_nil]
  clean := h.checksClean hr ((View.exact_blank sb).tidy h.fits)

/-- The writes of formatting are acknowledged up to the one that fails. -/
theorem layout_format_cases (l : Layout) {d : Device} (hsize : l.size ≤ d.size) :
    (∃ d', l.format d = .ok l.superblock d' ∧ d.Took l.writes d') ∨
      ∃ e d' k, k < l.writes.length ∧ l.format d = .error e d' ∧ d.Took (l.writes.take k) d' := by
  have hrun := l.format_eq d
  rw [if_neg (Nat.not_lt.2 hsize)] at hrun
  rcases Device.writeAll_cases l.writes d with ⟨d', hall, htook⟩ | ⟨e, d', k, hk, herror, htook⟩
  · left
    refine ⟨d', ?_, htook⟩
    rw [hrun]
    simp only [bind, EStateM.bind, hall]
    rfl
  · right
    refine ⟨e, d', k, hk, ?_, htook⟩
    rw [hrun]
    simp only [bind, EStateM.bind, herror]

/-- What formatting a device comes to, however it ends. -/
structure FormatsSafely (l : Layout) (d : Device) : Prop where
  /-- A device that is too small is refused and left alone. -/
  refused : d.size < l.size → format l d = .error .noSpace d
  /-- On a reliable device that is large enough every write is done. The volume is empty to the last
  byte, and so it is when what is on the device is mounted again. -/
  complete : l.size ≤ d.size → d.Reliable →
    ∃ v, format l d = .ok v v.device ∧ d.Took l.writes v.device ∧ l.Fresh d v.device.image ∧
      v.superblock = l.superblock ∧ v.Vacant ∧
      ∀ x : Device, x.Reliable → x.image = v.device.image → ∀ (order : VisitOrder) (repair : Bool),
        ∃ u x', mountVisiting order.visit repair x = .ok u x' ∧ u.superblock = l.superblock ∧ u.Vacant
  /-- On any other device the writes are done up to the one that fails. -/
  progress : l.size ≤ d.size →
    (∃ d', l.format d = .ok l.superblock d' ∧ d.Took l.writes d') ∨
      ∃ e d' k, k < l.writes.length ∧ l.format d = .error e d' ∧ d.Took (l.writes.take k) d'
  /-- After the first write and before the last one there is no volume on the device, and behind the
  volume nothing has changed. -/
  cut : ∀ k, 0 < k → k < l.writes.length → ∀ x : Device,
    x.image = Device.replay d.image (l.writes.take k) →
      Dead x ∧ ∀ i, l.size ≤ i → x.image.byte i = d.image.byte i

theorem FormatsSafely.dead_cut {l : Layout} {d : Device} (h : FormatsSafely l d) {k : Nat} (hpos : 0 < k)
    (hk : k < l.writes.length) : Dead (.ofImage (Device.replay d.image (l.writes.take k))) :=
  (h.cut k hpos hk (.ofImage _) rfl).1

/-- A formatted device shows an empty volume, and so does any device with the same contents. -/
theorem Shows.exists_vacant {sb : Superblock} {r : Prop} {v : Volume} {free : List Nat}
    (h : v.Shows sb r .blank free) {x : Device} (hx : x.Reliable) (himage : x.image = v.device.image)
    (order : VisitOrder) (repair : Bool) :
    ∃ u x', mountVisiting order.visit repair x = .ok u x' ∧ u.superblock = sb ∧ u.Vacant := by
  obtain ⟨hstored, hfits⟩ := h.mounted.stored_on himage
  rw [h.superblock] at hstored hfits
  have hview : sb.view x.image = .blank := by rw [himage, h.view]
  obtain ⟨u, x', hmount⟩ := exists_mountVisiting hx hstored hfits order.perm repair
  obtain ⟨free', hshows⟩ := shows_of_mountVisiting_tidy hmount hstored hfits order.perm
    (hview ▸ (View.exact_blank sb).tidy hfits)
  rw [hview] at hshows
  exact ⟨u, x', hmount, hshows.superblock, hshows.vacant hx⟩

/-- On a reliable device that is large enough formatting ends, and leaves an empty volume. -/
theorem format_complete {l : Layout} {d : Device} (hd : d.Reliable) (hsize : l.size ≤ d.size) :
    ∃ v, format l d = .ok v v.device ∧ v.Shows l.superblock d.Reliable .blank (List.range l.slots) ∧
      d.Took l.writes v.device ∧ l.Fresh d v.device.image := by
  have hyields := l.yields_format hsize
  unfold Device.Yields at hyields
  rcases layout_format_cases l hsize with ⟨d', hrun, htook⟩ | ⟨e, d', k, -, hrun, -⟩
  · rw [hrun] at hyields
    rcases format_cases l d with ⟨v, hv, hshows⟩ | ⟨-, hfail⟩
    · have hmount : mount false d' = .ok v v.device := by
        rw [← hv, format_of_ok hrun]
      obtain rfl : v.device = d' := (mount_false_eq_ok.1 hmount).2
      refine ⟨v, hv, hshows, htook, hyields.2.fresh hsize fun i hi => ?_⟩
      have hall := l.byte_replay_of_le hi l.writes.length d.image
      rwa [List.take_length, ← htook.image] at hall
    · exact absurd ⟨hd, hsize⟩ hfail
  · rw [hrun] at hyields
    exact absurd hd hyields

/-- **Formatting is complete or leaves no volume.** For every layout and every device, whatever is on it:
a device that is too small is left alone. On one that is large enough formatting is a fixed list of
writes. If all are done, the volume is empty to the last byte, nothing behind it has changed, and whenever
it is mounted all slots are free, no key is stored and no check finds anything. Wherever the writes are
cut short in between, what is on the device is not taken for a volume and cannot be mounted. -/
theorem formatsSafely (l : Layout) (d : Device) : FormatsSafely l d where
  refused := format_of_small
  complete hsize hd := by
    obtain ⟨v, hv, hshows, htook, hfresh⟩ := format_complete hd hsize
    exact ⟨v, hv, htook, hfresh, hshows.superblock, hshows.vacant hd,
      fun x hx himage order repair => hshows.exists_vacant hx himage order repair⟩
  progress := layout_format_cases l
  cut k hpos hk x himage := by
    constructor
    · exact dead_of_block_zero (himage ▸ l.block_zero_of_cut hpos hk d.image)
    · intro i hi
      rw [himage, l.byte_replay_of_le hi]

/-- A plain volume with one slot is written over a deduplicating one with two, and cut short after the
first write. -/
theorem formatsSafely_over_larger :
    ∃ v d', format ⟨2, true, by decide, by decide⟩
        (.ofImage (.blank (Layout.totalSize 2 true))) = .ok v d' ∧
      (∃ u, format ⟨1, false, by decide, by decide⟩ v.device = .ok u u.device ∧ u.Vacant) ∧
      Dead (.ofImage (Device.replay v.device.image
        ((Layout.writes ⟨1, false, by decide, by decide⟩).take 1))) := by
  obtain ⟨v, hv, hshows⟩ := exists_format_blank ⟨2, true, by decide, by decide⟩
  have hsafe := formatsSafely ⟨1, false, by decide, by decide⟩ v.device
  have hsize : Layout.totalSize 1 false ≤ v.device.size := by
    have hle := hshows.fits.volume_le
    rw [Layout.volumeSize_superblock] at hle
    exact Nat.le_trans (by decide) hle
  obtain ⟨u, hu, -, -, -, hvacant, -⟩ := hsafe.complete hsize (hshows.reliable.2 trivial)
  have hlength : 1 < (Layout.writes ⟨1, false, by decide, by decide⟩).length := by
    rw [Layout.length_writes]
    omega
  exact ⟨v, _, hv, ⟨u, hu, hvacant⟩, hsafe.dead_cut Nat.one_pos hlength⟩

end Volume

end BlockStore
