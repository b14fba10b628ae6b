import BlockStore.Allocator
import BlockStore.Proofs.Codec

/-!
# One bit of a bitmap

Setting or clearing the bit of a slot is seen at that slot and nowhere else, and changes one byte.

## Main results

* `testSlot_assignSlot`: the bits after a change of one of them.
* `byteAt_assignSlot_of_ne`: the other bytes are as before.
-/

namespace BlockStore

theorem testBit_slotMask (s : Nat) {i : Nat} (hi : i < 8) :
    (slotMask s).toNat.testBit (7 - i) = decide (s % 8 = i) := by
  have hall : ∀ r < 8, ∀ i < 8,
      ((0x80 : UInt8) >>> UInt8.ofNat r).toNat.testBit (7 - i) = decide (r = i) := by decide
  exact hall (s % 8) (Nat.mod_lt _ (by decide)) i hi

@[simp] theorem size_assignSlot (bitmap : ByteArray) (s : Nat) (used : Bool) :
    (assignSlot bitmap s used).size = bitmap.size := size_set ..

theorem byteAt_assignSlot_of_ne {bitmap : ByteArray} {s i : Nat} (used : Bool) (hi : i ≠ s / 8) :
    byteAt (assignSlot bitmap s used) i = byteAt bitmap i := by
  rw [assignSlot, byteAt_set, if_neg fun h => hi h.1.symm]

theorem byteAt_assignSlot_self {bitmap : ByteArray} {s : Nat} (h : s / 8 < bitmap.size)
    (used : Bool) : byteAt (assignSlot bitmap s used) (s / 8) =
      if used then byteAt bitmap (s / 8) ||| slotMask s
      else byteAt bitmap (s / 8) &&& ~~~ slotMask s := by
  rw [assignSlot, byteAt_set, if_pos ⟨rfl, h⟩]

/-- Setting or clearing a bit is seen at its slot and nowhere else. -/
theorem testSlot_assignSlot {bitmap : ByteArray} {s : Nat} (h : s / 8 < bitmap.size) (used : Bool)
    (t : Nat) : testSlot (assignSlot bitmap s used) t = if t = s then used else testSlot bitmap t := by
  unfold testSlot
  by_cases hbyte : t / 8 = s / 8
  · have hmask := testBit_slotMask s (Nat.mod_lt t (by decide))
    have hsame : decide (s % 8 = t % 8) = decide (t = s) := by
      rw [decide_eq_decide]
      omega
    rw [hbyte, byteAt_assignSlot_self h]
    have hcomp : ((~~~ slotMask s).toNat.testBit (7 - t % 8)) = !decide (t = s) := by
      have hbit : 7 - t % 8 < 8 := by omega
      rw [UInt8.toNat_not, ← hsame, ← hmask, show UInt8.size - 1 - (slotMask s).toNat =
        2 ^ 8 - ((slotMask s).toNat + 1) by simp [UInt8.size],
        Nat.testBit_two_pow_sub_succ (UInt8.toNat_lt _)]
      simp [hbit]
    by_cases hts : t = s
    · subst hts
      cases used <;> simp_all
    · cases used <;> simp_all
  · rw [byteAt_assignSlot_of_ne used hbyte, if_neg (by rintro rfl; exact hbyte rfl)]

theorem size_extract_block {bitmap : ByteArray} {k n : Nat} (hsize : bitmap.size = n * blockSize)
    (hk : k < n) : (bitmap.extract (k * blockSize) ((k + 1) * blockSize)).size = blockSize := by
  have hle : (k + 1) * blockSize ≤ n * blockSize := Nat.mul_le_mul_right _ hk
  rw [ByteArray.size_extract, hsize]
  rw [Nat.succ_mul] at *
  omega

theorem fit_of_size_eq {b : ByteArray} {n : Nat} (h : b.size = n) : fit b n = b := if_pos h

end BlockStore
