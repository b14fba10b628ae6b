import BlockStore.Device
import Mathlib.Algebra.Group.Nat.Defs

/-!
# What a device holds after writes

A device of fixed size on which nothing is planned to fail accepts a write exactly when it is whole blocks
that end inside the device, at a 64-bit position. A write that is refused leaves the contents alone. So
after any writes, some of which may have been refused, each byte is the one of the last accepted write that
covers it, and that is what a read gives. All of this is said of bytes: writes may overlap, may be empty,
and the device need not end with a whole block.

## Main definitions

* `Device.Plain`: the size is fixed and nothing is planned to fail.
* `Write.Fits`, `Write.Covers`: an acceptable write, and the bytes that it sets.
* `Device.attempt`: writes in order, those that are refused passed over.
* `lastWrite?`, `lastByte`: the last accepted write that covers a byte, and what the byte is then.
* `Device.written`: a device after writes to given contents.

## Main results

* `Device.Plain.write_of_fits`, `write_of_not_fits`: the two outcomes of a write.
* `Device.Plain.attempt_eq`: the size and the bytes after writes, by induction on them.
* `Device.reads_last_writes`: the reads that succeed, and what they give.
-/

namespace BlockStore

namespace Write

/-- The write is whole blocks, which end inside a device of `size` bytes and at a 64-bit position. -/
structure Fits (w : Write) (size : Nat) : Prop where
  aligned : w.data.size % blockSize = 0
  lt_word : w.block * blockSize + w.data.size < 2 ^ 64
  le_size : w.block * blockSize + w.data.size ≤ size

/-- The write sets the byte at a position. -/
def Covers (w : Write) (i : Nat) : Prop :=
  w.block * blockSize ≤ i ∧ i < w.block * blockSize + w.data.size

variable (w : Write) (size i : Nat)

instance : Decidable (w.Fits size) :=
  decidable_of_iff (w.data.size % blockSize = 0 ∧ w.block * blockSize + w.data.size < 2 ^ 64 ∧
    w.block * blockSize + w.data.size ≤ size) ⟨fun h => ⟨h.1, h.2.1, h.2.2⟩, fun h => ⟨h.1, h.2, h.3⟩⟩

instance : Decidable (w.Covers i) := inferInstanceAs (Decidable (_ ∧ _))

/-- The byte that the write puts at a position that it covers. -/
def byteFor (w : Write) (i : Nat) : UInt8 := byteAt w.data (i - w.block * blockSize)

end Write

/-- The last write that fits in `size` bytes and covers a byte. -/
def lastWrite? (size : Nat) (ws : List Write) (i : Nat) : Option Write :=
  ws.reverse.find? fun w => decide (w.Fits size ∧ w.Covers i)

/-- The byte at a position after writes to a device that held `bytes`. -/
def lastByte (bytes : ByteArray) (ws : List Write) (i : Nat) : UInt8 :=
  match lastWrite? bytes.size ws i with
  | some w => w.byteFor i
  | none => byteAt bytes i

theorem lastWrite?_cons (size : Nat) (w : Write) (ws : List Write) (i : Nat) :
    lastWrite? size (w :: ws) i = (lastWrite? size ws i).or
      (if w.Fits size ∧ w.Covers i then some w else none) := by
  rw [lastWrite?, List.reverse_cons, List.find?_append, List.find?_singleton]
  simp only [decide_eq_true_eq]
  rfl

namespace Device

/-- The size is fixed and nothing is planned to fail. -/
structure Plain (d : Device) : Prop where
  limit : d.limit = none
  faults : d.faults = .none

/-- Performs writes in order. One that is refused is passed over. -/
def attempt : List Write → Device → Device
  | [], d => d
  | w :: ws, d =>
    match write w.block w.data d with
    | .ok _ d' => attempt ws d'
    | .error _ d' => attempt ws d'

variable {d : Device} {block count : Nat} {w : Write}

theorem plain_ofImage (im : Image) : (ofImage im).Plain := ⟨rfl, rfl⟩

/-- A range ends at a 64-bit position. -/
theorem rangeEnd_of_lt {length : Nat} (h : block * blockSize + length < 2 ^ 64) :
    rangeEnd block length = .ok (block * blockSize + length) := by
  rw [rangeEnd, Nat.one_shiftLeft, if_neg (by omega), if_neg (by omega)]

/-- A range that ends further on is refused, wherever it starts. -/
theorem rangeEnd_of_le {length : Nat} (h : 2 ^ 64 ≤ block * blockSize + length) :
    ∃ e, rangeEnd block length = .error e := by
  rw [rangeEnd, Nat.one_shiftLeft, if_pos h]
  split
  · exact ⟨_, rfl⟩
  · exact ⟨_, rfl⟩

namespace Plain

/-! ### One write -/

theorem checkWrite_eq_ok_iff (h : d.Plain) :
    d.checkWrite w.block w.data = .ok () ↔ w.Fits d.size := by
  simp only [checkWrite, h.faults, FaultPlan.none, h.limit, bind, Except.bind, pure, Except.pure,
    throw, throwThe, MonadExceptOf.throw]
  by_cases haligned : w.data.size % blockSize = 0
  · rcases Nat.lt_or_ge (w.block * blockSize + w.data.size) (2 ^ 64) with hword | hword
    · rw [rangeEnd_of_lt hword]
      by_cases hsize : w.block * blockSize + w.data.size ≤ d.size
      · simp [haligned, Nat.not_lt.2 hsize, Write.Fits.mk haligned hword hsize]
      · have hrefused : ¬ w.Fits d.size := fun hw => hsize hw.le_size
        simp [haligned, Nat.not_le.1 hsize, hrefused]
    · obtain ⟨e, he⟩ := rangeEnd_of_le hword
      have hrefused : ¬ w.Fits d.size := fun hw => Nat.not_lt.2 hword hw.lt_word
      simp [haligned, he, hrefused]
  · have hrefused : ¬ w.Fits d.size := fun hw => haligned hw.aligned
    simp [haligned, hrefused]

/-- A write that fits is done. -/
theorem write_of_fits (h : d.Plain) (hw : w.Fits d.size) :
    ∃ d', write w.block w.data d = .ok () d' ∧ d'.Plain ∧ d'.image = d.image.write w.block w.data := by
  refine ⟨{ d with
    image := d.image.write w.block w.data
    attempted := d.attempted + 1
    log := d.log.push ⟨w.block, w.data⟩ }, ?_, ⟨h.limit, h.faults⟩, rfl⟩
  rw [write, h.checkWrite_eq_ok_iff.2 hw]

/-- Any other write is refused, and all that it does is to count as a transfer. -/
theorem write_of_not_fits (h : d.Plain) (hw : ¬ w.Fits d.size) :
    ∃ e, write w.block w.data d = .error e d.tick := by
  rw [write]
  cases hcheck : d.checkWrite w.block w.data with
  | error e => exact ⟨.device e, rfl⟩
  | ok => exact absurd (h.checkWrite_eq_ok_iff.1 hcheck) hw

/-! ### Writes in order -/

theorem size_write (hw : w.Fits d.size) : (d.image.write w.block w.data).size = d.size := by
  have hsize := hw.le_size
  rw [Image.write]
  split
  · exact Image.size_setBlocks ..
  · exact Nat.max_eq_left hsize

theorem byte_write (hw : w.Fits d.size) (i : Nat) :
    (d.image.write w.block w.data).byte i = if w.Covers i then w.byteFor i else d.image.byte i :=
  Image.byte_write _ _ (Nat.dvd_of_mod_eq_zero hw.aligned) i

/-- After writes the device is as long as before, and each byte is that of the last accepted write that
covers it. -/
theorem attempt_eq (h : d.Plain) (ws : List Write) :
    (attempt ws d).Plain ∧ (attempt ws d).size = d.size ∧
      ∀ i, (attempt ws d).image.byte i =
        ((lastWrite? d.size ws i).map (·.byteFor i)).getD (d.image.byte i) := by
  induction ws generalizing d with
  | nil => exact ⟨h, rfl, fun _ => rfl⟩
  | cons w ws ih =>
    by_cases hw : w.Fits d.size
    · obtain ⟨d', hwrite, h', himage⟩ := h.write_of_fits hw
      have hsize : d'.size = d.size := (congrArg Image.size himage).trans (size_write hw)
      obtain ⟨hplain, hsame, hbyte⟩ := ih h'
      rw [attempt, hwrite]
      refine ⟨hplain, hsame.trans hsize, fun i => ?_⟩
      rw [hbyte, hsize, himage, byte_write hw, lastWrite?_cons]
      cases lastWrite? d.size ws i with
      | some _ => rfl
      | none =>
        -- No later write covers the byte, so this one is the last if it does.
        by_cases hcovers : w.Covers i
        · simp [hcovers, hw]
        · simp [hcovers]
    · obtain ⟨e, hwrite⟩ := h.write_of_not_fits hw
      obtain ⟨hplain, hsame, hbyte⟩ := ih (d := d.tick) ⟨h.limit, h.faults⟩
      rw [attempt, hwrite]
      refine ⟨hplain, hsame, fun i => ?_⟩
      rw [hbyte, lastWrite?_cons, if_neg fun hboth => hw hboth.1, Option.or_none]
      rfl

/-! ### Reading -/

theorem read_eq_error_iff (h : d.Plain) :
    (∃ e, d.read block count = .error e) ↔
      2 ^ 64 ≤ block * blockSize + count * blockSize ∨
        d.size < block * blockSize + count * blockSize := by
  simp only [Device.read, checkRead, checkHeld, h.faults, FaultPlan.none, h.limit, bind, Except.bind,
    pure, Except.pure, throw, throwThe, MonadExceptOf.throw, Bool.false_eq_true, if_false]
  rcases Nat.lt_or_ge (block * blockSize + count * blockSize) (2 ^ 64) with hword | hword
  · rw [rangeEnd_of_lt hword, or_iff_right (Nat.not_le.2 hword)]
    by_cases hsize : d.size < block * blockSize + count * blockSize
    · simp [hsize]
    · simp [hsize]
  · obtain ⟨e, he⟩ := rangeEnd_of_le hword
    exact iff_of_true ⟨e, by rw [he]⟩ (.inl hword)

end Plain

theorem eq_of_read {data : ByteArray} (h : d.read block count = .ok data) :
    data = d.image.read block count := by
  rw [Device.read] at h
  cases hcheck : d.checkRead block count with
  | ok =>
    rw [hcheck] at h
    exact (Except.ok.inj h).symm
  | error e =>
    rw [hcheck] at h
    cases h

/-- The device of fixed size that held `bytes`, after writes. -/
def written (bytes : ByteArray) (ws : List Write) : Device := attempt ws (ofImage (.ofBytes bytes))

/-- **Reads see exactly the writes.** Take a device of fixed size with any contents, after any writes of
which some may have been refused. A further write is accepted exactly if it fits, and one that is refused
only counts as a transfer. A read is refused exactly if its range ends past the 64-bit positions or past
the device; any other gives the blocks asked for, each byte as the last accepted write that covers it left
it. -/
theorem reads_last_writes (bytes : ByteArray) (ws : List Write) :
    (∀ w : Write,
      ((∃ d, write w.block w.data (written bytes ws) = .ok () d) ↔ w.Fits bytes.size) ∧
      ∀ e d, write w.block w.data (written bytes ws) = .error e d → d = (written bytes ws).tick) ∧
    ∀ block count : Nat,
      ((∃ e, (written bytes ws).read block count = .error e) ↔
        2 ^ 64 ≤ block * blockSize + count * blockSize ∨
          bytes.size < block * blockSize + count * blockSize) ∧
      ∀ data, (written bytes ws).read block count = .ok data →
        data.size = count * blockSize ∧
          ∀ i < count * blockSize, byteAt data i = lastByte bytes ws (block * blockSize + i) := by
  obtain ⟨d, hd⟩ : ∃ d, d = written bytes ws := ⟨_, rfl⟩
  obtain ⟨hplain, hsize, hbyte⟩ := (plain_ofImage (.ofBytes bytes)).attempt_eq ws
  rw [← written, ← hd] at hplain hsize hbyte
  rw [← hd]
  have hold : (ofImage (.ofBytes bytes)).size = bytes.size := Image.size_ofBytes bytes
  have hlen : d.size = bytes.size := hsize.trans hold
  refine ⟨fun w => ⟨⟨fun ⟨d', hd'⟩ => ?_, fun hw => ?_⟩, fun e d' hd' => ?_⟩, fun block count =>
    ⟨?_, fun data hdata => ?_⟩⟩
  · by_cases hw : w.Fits d.size
    · exact hlen ▸ hw
    · obtain ⟨e, he⟩ := hplain.write_of_not_fits hw
      rw [he] at hd'
      cases hd'
  · obtain ⟨d', hd', -⟩ := hplain.write_of_fits (hlen ▸ hw)
    exact ⟨d', hd'⟩
  · by_cases hw : w.Fits d.size
    · obtain ⟨d'', hd'', -⟩ := hplain.write_of_fits hw
      rw [hd''] at hd'
      cases hd'
    · obtain ⟨e', he'⟩ := hplain.write_of_not_fits hw
      rw [he'] at hd'
      cases hd'
      rfl
  · rw [hplain.read_eq_error_iff, hlen]
  · obtain rfl := eq_of_read hdata
    refine ⟨Image.size_read .., fun i hi => ?_⟩
    rw [Image.byteAt_read, if_pos hi, hbyte, hold, lastByte]
    cases lastWrite? bytes.size ws (block * blockSize + i) with
    | some w => rfl
    | none => exact Image.byte_ofBytes ..

end Device

end BlockStore
