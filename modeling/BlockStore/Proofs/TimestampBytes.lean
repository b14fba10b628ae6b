import BlockStore.Proofs.Clocks

/-!
# The bytes of timestamps

Views that differ in timestamps only are those of images that differ in the bytes of timestamps only, if
the images agree outside the view. These are the last eight bytes of the entries of slots.

## Main definitions

* `Superblock.TimeByteOf`, `TimeByte`: the positions of these bytes, for one slot and for all.
* `Superblock.SameButTimes`: images that agree everywhere else.

## Main results

* `Superblock.SameMargin.byte_eq`: the bytes of slots whose timestamp is the same, too, agree.
* `Superblock.SameMargin.sameButTimes`: from views to bytes.
-/

namespace BlockStore

namespace Superblock

/-- The position is one of the timestamp of a slot: its entry has 32 bytes, and the last eight of them are
its timestamp. -/
def TimeByteOf (sb : Superblock) (s i : Nat) : Prop :=
  sb.keysStart * blockSize + s * recordSize + 24 ≤ i ∧ i < sb.keysStart * blockSize + (s + 1) * recordSize

/-- The position is one of the timestamp of some slot. -/
def TimeByte (sb : Superblock) (i : Nat) : Prop := ∃ s < sb.slots, sb.TimeByteOf s i

/-- The images are of one length and differ in the bytes of timestamps only. -/
structure SameButTimes (sb : Superblock) (im im' : Image) : Prop where
  size : im'.size = im.size
  byte : ∀ i, ¬ sb.TimeByte i → im'.byte i = im.byte i

variable {sb : Superblock} {im im' : Image}

/-- Each entry is a matter of the view, or each but for its timestamp. -/
theorem SameMargin.byteAt_eq (h : sb.SameMargin im im')
    (hkeys : ∀ s, ((sb.view im).keys s).UpToTime ((sb.view im').keys s)) {k j o : Nat}
    (hk : k < sb.keysRegion.count) (hj : j < recordsPerBlock) (ho : o < recordSize)
    (htime : k * recordsPerBlock + j < sb.slots →
      (sb.view im').keys (k * recordsPerBlock + j) = (sb.view im).keys (k * recordsPerBlock + j) ∨ o < 24) :
    byteAt (im'.block (sb.keysStart + k)).bytes (j * recordSize + o) =
      byteAt (im.block (sb.keysStart + k)).bytes (j * recordSize + o) := by
  obtain ⟨hdiv, hmod⟩ := RecordTable.split_index hj k
  by_cases hs : k * recordsPerBlock + j < sb.slots
  · have he := hkeys (k * recordsPerBlock + j)
    have hcases := htime hs
    simp only [view, if_pos hs, hdiv, hmod] at he hcases
    rcases hcases with hsame | ho
    · exact Record.byteAt_eq_of_decode (congrArg KeyEntry.toRecord hsame) ho
    · exact Record.byteAt_eq_of_head he.key_eq he.flags_eq he.refCount_eq ho
  · have hrecord := h.record (k * recordsPerBlock + j) (Nat.not_lt.1 hs) (by rw [hdiv]; exact hk)
    rw [hdiv, hmod] at hrecord
    exact Record.byteAt_eq_of_decode hrecord ho

/-- Images that agree outside the view, and whose views differ in timestamps only, agree in every byte that
is not one of a timestamp that differs. -/
theorem SameMargin.byte_eq (h : sb.SameMargin im im') (hview : (sb.view im).UpToTimes (sb.view im')) {i : Nat}
    (htime : ∀ s < sb.slots, sb.TimeByteOf s i → (sb.view im').keys s = (sb.view im).keys s) :
    im'.byte i = im.byte i := by
  by_cases hn : sb.keysRegion.Holds (i / blockSize)
  · obtain ⟨hfirst, hstop⟩ := hn
    obtain ⟨k, hblock⟩ := Nat.exists_eq_add_of_le hfirst
    rw [hblock] at hstop
    have hk : k < sb.keysRegion.count := Nat.lt_of_add_lt_add_left hstop
    have hlt : i % blockSize < blockSize := Nat.mod_lt i (by decide)
    have hj : i % blockSize / recordSize < recordsPerBlock := (Nat.div_lt_iff_lt_mul (by decide)).2 hlt
    have hsplit : i % blockSize / recordSize * recordSize + i % blockSize % recordSize = i % blockSize :=
      Nat.div_add_mod' _ _
    have hi' := Nat.div_add_mod' i blockSize
    rw [Image.byte, Image.byte, hblock, ← hsplit]
    refine h.byteAt_eq hview.keys hk hj (Nat.mod_lt _ (by decide)) fun hs => ?_
    by_cases ho : i % blockSize % recordSize < 24
    · exact .inr ho
    · refine .inl (htime _ hs ⟨?_, ?_⟩)
      all_goals
        change i / blockSize = sb.keysStart + k at hblock
        rw [hblock] at hi'
        simp only [blockSize, recordSize, recordsPerBlock] at *
        omega
  · rw [Image.byte, Image.byte, h.block_eq_of_not_holds hview.used hview.shared hview.data hn]

/-- Images that agree outside the view, and whose views differ in timestamps only, differ in the bytes of
timestamps only. -/
theorem SameMargin.sameButTimes (h : sb.SameMargin im im')
    (hview : (sb.view im).UpToTimes (sb.view im')) : sb.SameButTimes im im' :=
  ⟨h.size, fun _ hi => h.byte_eq hview fun s hs ho => absurd ⟨s, hs, ho⟩ hi⟩

end Superblock

end BlockStore
