import BlockStore.Proofs.View

/-!
# Transfers of one block

Inside its range a device either does what it is asked or reports an error and keeps its contents, and
the second happens only to a device that is not reliable. That is all the theory of volumes needs to
know of devices: fault plans, growing files and 64-bit positions stay behind these lemmas.

## Main definitions

* `Device.Reliable`: nothing is planned to fail, and a file has the length of a file.
* `Device.Holds`: a block inside the device.
* `Device.wrote`: the device after an acknowledged write of one block.

## Main results

* `Device.Covers.checkRead_eq`, `Covers.checkWrite_eq`: inside the device only the plan makes a transfer
  fail.
* `Device.readBlock_eq`, `Device.writeBlock_eq`: the two outcomes of a transfer.
-/

namespace BlockStore

namespace Device

/-- No transfer inside the device fails. -/
structure Reliable (d : Device) : Prop where
  /-- Nothing is planned to fail. -/
  faults : d.faults = .none
  /-- The length of a file is a 63-bit number. -/
  size_lt : d.limit.isSome → d.size < 1 <<< 63

/-- The `count` blocks from a block on lie inside the device, and end at a 64-bit position. -/
structure Covers (d : Device) (block count : Nat) : Prop where
  le_size : (block + count) * blockSize ≤ d.size
  lt_word : (block + count) * blockSize < 2 ^ 64

/-- The block lies inside the device, and ends at a 64-bit position. -/
abbrev Holds (d : Device) (block : Nat) : Prop := d.Covers block 1

/-- The device after an acknowledged write of one block. -/
def wrote (d : Device) (block : Nat) (b : Block) : Device :=
  { d with
    image := d.image.write block b.bytes
    attempted := d.attempted + 1
    log := d.log.push ⟨block, b.bytes⟩ }

variable {d : Device} {block count : Nat}

@[simp] theorem reliable_tick : d.tick.Reliable ↔ d.Reliable :=
  ⟨fun h => ⟨h.faults, h.size_lt⟩, fun h => ⟨h.faults, h.size_lt⟩⟩

theorem reliable_ofImage (im : Image) : (ofImage im).Reliable := ⟨rfl, fun h => by cases h⟩

theorem Holds.size_wrote (h : d.Holds block) (b : Block) : (d.wrote block b).size = d.size :=
  Image.size_write_of_le h.le_size

theorem Holds.reliable_wrote (h : d.Holds block) (b : Block) :
    (d.wrote block b).Reliable ↔ d.Reliable := by
  have hsize := h.size_wrote b
  constructor
  · exact fun hr => ⟨hr.faults, fun hg => hsize ▸ hr.size_lt hg⟩
  · exact fun hr => ⟨hr.faults, fun hg => hsize ▸ hr.size_lt hg⟩

theorem Covers.rangeEnd_eq (h : d.Covers block count) :
    rangeEnd block (count * blockSize) = .ok ((block + count) * blockSize) := by
  have hend := h.lt_word
  rw [Nat.add_mul] at hend
  rw [rangeEnd, if_neg (by rw [Nat.one_shiftLeft]; omega),
    if_neg (by rw [Nat.one_shiftLeft]; omega), Nat.add_mul]

/-- A range within a range that lies inside the device lies inside it. -/
theorem Covers.within (h : d.Covers block count) {start n : Nat} (hle : start + n ≤ block + count) :
    d.Covers start n := by
  have hend : (start + n) * blockSize ≤ (block + count) * blockSize := Nat.mul_le_mul_right _ hle
  exact ⟨Nat.le_trans hend h.le_size, Nat.lt_of_le_of_lt hend h.lt_word⟩

theorem Covers.of_size_eq {d' : Device} (h : d.Covers block count) (hsize : d'.size = d.size) :
    d'.Covers block count := ⟨hsize ▸ h.le_size, h.lt_word⟩

theorem Covers.tick (h : d.Covers block count) : d.tick.Covers block count := h.of_size_eq rfl

/-- Each block of a range inside the device lies inside it. -/
theorem Covers.holds (h : d.Covers block count) {k : Nat} (hk : k < count) : d.Holds (block + k) :=
  h.within (by omega)

/-- A range inside a device is there, if a file has the length of a file. -/
theorem Covers.checkHeld_eq (h : d.Covers block count) (hlen : d.limit.isSome → d.size < 1 <<< 63) :
    d.checkHeld block count = .ok () := by
  have hsize := h.le_size
  simp only [checkHeld, h.rangeEnd_eq, bind, Except.bind]
  cases hlimit : d.limit with
  | some limit =>
    have hlen := hlen (hlimit ▸ rfl)
    dsimp only
    by_cases hcount : count = 0
    · rw [if_neg (not_not_intro hcount)]
      rfl
    · rw [if_pos hcount, if_neg (by omega), if_neg (by omega)]
      rfl
  | none =>
    dsimp only
    rw [if_neg (by omega)]
    rfl

/-- A read inside a device fails only by plan. -/
theorem Covers.checkRead_eq (h : d.Covers block count) (hlen : d.limit.isSome → d.size < 1 <<< 63) :
    d.checkRead block count =
      if d.faults.failsRead d.attempted d.log.size block count then .error (.readFault block)
      else .ok () := by
  simp only [checkRead, h.checkHeld_eq hlen]
  split <;> rfl

/-- Blocks inside the device are read as they are, unless the device is not reliable. -/
theorem read_eq (h : d.Covers block count) :
    d.read block count = .ok (d.image.read block count) ∨
      (∃ e, d.read block count = .error e) ∧ ¬ d.Reliable := by
  by_cases hr : d.Reliable
  · left
    simp [read, h.checkRead_eq hr.size_lt, hr.faults, FaultPlan.none, bind, Except.bind, pure,
      Except.pure]
  · simp only [read, bind, Except.bind]
    cases d.checkRead block count with
    | ok => exact .inl rfl
    | error e => exact .inr ⟨⟨e, rfl⟩, hr⟩

/-- A block inside the device is read as it is, unless the device is not reliable. -/
theorem readBlock_eq (h : d.Holds block) :
    d.readBlock block = .ok (d.image.block block) ∨
      (∃ e, d.readBlock block = .error (.device e)) ∧ ¬ d.Reliable := by
  by_cases hr : d.Reliable
  · left
    have hcheck : d.checkRead block 1 = .ok () := by
      simp [h.checkRead_eq hr.size_lt, hr.faults, FaultPlan.none]
    rw [readBlock, hcheck]
  · rw [readBlock]
    cases d.checkRead block 1 with
    | ok => exact .inl rfl
    | error e => exact .inr ⟨⟨e, rfl⟩, hr⟩

/-- What is read of a block is the block. -/
theorem eq_of_readBlock {b : Block} (h : d.readBlock block = .ok b) : b = d.image.block block := by
  rw [readBlock] at h
  cases hcheck : d.checkRead block 1 with
  | ok =>
    rw [hcheck] at h
    exact (Except.ok.inj h).symm
  | error e =>
    rw [hcheck] at h
    cases h

/-- A write inside a device fails only by plan. -/
theorem Covers.checkWrite_eq (h : d.Covers block count) (hlen : d.limit.isSome → d.size < 1 <<< 63)
    {data : ByteArray} (hdata : data.size = count * blockSize) :
    d.checkWrite block data =
      if d.faults.failsWrite d.attempted d.log.size block count then .error (.writeFault block)
      else .ok () := by
  have hsize := h.le_size
  have haligned : ¬ count * blockSize % blockSize ≠ 0 := by simp
  have hcount : count * blockSize / blockSize = count := Nat.mul_div_cancel _ (by decide)
  simp only [checkWrite, hdata, hcount, haligned, h.rangeEnd_eq, if_false, bind, Except.bind]
  split
  · rfl
  simp only [pure, Except.pure]
  cases hlimit : d.limit with
  | some limit =>
    have hlen := hlen (hlimit ▸ rfl)
    have hroom : ¬ max limit d.size < (block + count) * blockSize :=
      Nat.not_lt.2 (Nat.le_trans hsize (Nat.le_max_right _ _))
    dsimp only
    by_cases hcount : count * blockSize = 0
    · rw [if_neg (not_not_intro hcount)]
    · rw [if_pos hcount, if_neg (by omega), if_neg hroom]
  | none =>
    dsimp only
    rw [if_neg (by omega)]

/-- A block inside the device is written unless it is planned that the write fails. -/
theorem Holds.writeBlock_eq_ite (h : d.Holds block) (hlen : d.limit.isSome → d.size < 1 <<< 63)
    (b : Block) : writeBlock block b d =
      if d.faults.failsWrite d.attempted d.log.size block 1 then
        .error (.device (.writeFault block)) d.tick
      else .ok () (d.wrote block b) := by
  rw [writeBlock, write, h.checkWrite_eq hlen (b.size_eq.trans (Nat.one_mul _).symm)]
  by_cases hplan : d.faults.failsWrite d.attempted d.log.size block 1 = true
  · rw [if_pos hplan, if_pos hplan]
  · rw [if_neg hplan, if_neg hplan]
    rfl

/-- A block inside the device is written, or the device is not reliable and keeps its contents. -/
theorem writeBlock_eq (h : d.Holds block) (b : Block) :
    writeBlock block b d = .ok () (d.wrote block b) ∨
      (∃ e, writeBlock block b d = .error (.device e) d.tick) ∧ ¬ d.Reliable := by
  rw [writeBlock, write]
  by_cases hr : d.Reliable
  · left
    have hcheck : d.checkWrite block b.bytes = .ok () := by
      simp [h.checkWrite_eq hr.size_lt (b.size_eq.trans (Nat.one_mul _).symm), hr.faults,
        FaultPlan.none]
    rw [hcheck]
    rfl
  · cases d.checkWrite block b.bytes with
    | ok => exact .inl rfl
    | error e => exact .inr ⟨⟨e, rfl⟩, hr⟩

end Device

/-- All up to the end of the data lies on a device that has room for the volume. -/
theorem Superblock.Fits.covers {d : Device} {sb : Superblock} (h : sb.Fits d.size) {start count : Nat}
    (hle : start + count ≤ sb.dataStart + sb.slots) : d.Covers start count := by
  have hend : (start + count) * blockSize ≤ (sb.dataStart + sb.slots) * blockSize :=
    Nat.mul_le_mul_right _ hle
  exact ⟨Nat.le_trans hend h.data_le.1, Nat.lt_of_le_of_lt hend h.data_le.2⟩

end BlockStore
