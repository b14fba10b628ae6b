import BlockStore.Record
import Mathlib.Algebra.Group.Nat.Defs

/-!
# 64-bit words

Offsets, lengths, block numbers and times are 64-bit words, and the definitions of this library compute with
the numbers that they stand for. Here is what it takes to compute the same in words. Where a result leaves 64
bits it must not wrap around: offsets, lengths and block numbers then have no result, and times stop at the
greatest word.

## Main definitions

* `Word.add?`, `Word.sub?`, `Word.mul?`: arithmetic that has no result where it leaves 64 bits.
* `Word.Denotes`: a result is there and stands for a number.
* `Word.addUpTo`, `Word.mulUpTo`: arithmetic that stops at the greatest word.

## Main results

* `Word.denotes_add?`, `denotes_sub?`, `denotes_mul?`, `denotes_ceilDiv?`: results stand for those of numbers.
* `Word.toNat_addUpTo`, `toNat_mulUpTo`: so they do here, up to the greatest word.
-/

namespace BlockStore

theorem ceilDiv_eq {a b : Nat} (hb : 0 < b) :
    ceilDiv a b = if a % b = 0 then a / b else a / b + 1 := by
  have hr := Nat.mod_lt a hb
  have ha := Nat.div_add_mod a b
  have hsum : a + b - 1 = b * (a / b) + (a % b + b - 1) := by omega
  rw [ceilDiv, hsum, Nat.mul_add_div hb]
  split
  case isTrue h => rw [Nat.div_eq_of_lt (a := a % b + b - 1) (by omega), Nat.add_zero]
  case isFalse h => rw [Nat.div_eq_of_lt_le (m := a % b + b - 1) (k := 1) (by omega) (by omega)]

namespace Word

/-- The word of a number that fits in 64 bits. -/
def ofNat? (n : Nat) : Option UInt64 := if n < 2 ^ 64 then some (UInt64.ofNat n) else none

/-- The sum. -/
def add? (a b : UInt64) : Option UInt64 := ofNat? (a.toNat + b.toNat)

/-- The product. -/
def mul? (a b : UInt64) : Option UInt64 := ofNat? (a.toNat * b.toNat)

/-- The difference. -/
def sub? (a b : UInt64) : Option UInt64 := if b ≤ a then some (a - b) else none

/-- The difference, or zero where it would be negative. -/
def monus (a b : UInt64) : UInt64 := if b ≤ a then a - b else 0

/-- The quotient, rounded up. -/
def ceilDiv? (a b : UInt64) : Option UInt64 := if a % b = 0 then some (a / b) else add? (a / b) 1

/-- Bytes rounded up to whole blocks. -/
def padded? (bytes : UInt64) : Option UInt64 := do mul? (← ceilDiv? bytes (.ofNat blockSize)) (.ofNat blockSize)

/-- The lower 32 bits of a word, if they are all of it. -/
def narrow? (w : UInt64) : Option UInt32 := if w.toUInt32.toUInt64 = w then some w.toUInt32 else none

variable {a b c : UInt64} {m n : Nat}

theorem toNat_blockSize : (UInt64.ofNat blockSize).toNat = blockSize := rfl

theorem toNat_recordSize : (UInt64.ofNat recordSize).toNat = recordSize := rfl

theorem lt_iff (ha : a.toNat = m) (hb : b.toNat = n) : a < b ↔ m < n := by
  rw [UInt64.lt_iff_toNat_lt, ha, hb]

theorem toNat_monus (a b : UInt64) : (monus a b).toNat = a.toNat - b.toNat := by
  rw [monus]
  split
  case isTrue h => exact UInt64.toNat_sub_of_le _ _ h
  case isFalse h =>
    rw [UInt64.le_iff_toNat_le] at h
    rw [UInt64.toNat_zero]
    omega

theorem narrow?_eq (h : a.toNat < 2 ^ 32) : ∃ w, narrow? a = some w ∧ w.toNat = a.toNat := by
  have hcut : a.toUInt32.toNat = a.toNat := by rw [UInt64.toNat_toUInt32, Nat.mod_eq_of_lt h]
  refine ⟨a.toUInt32, if_pos (UInt64.toNat_inj.1 ?_), hcut⟩
  rw [UInt32.toNat_toUInt64, hcut]

/-! ### Results that are there -/

/-- The word is there and stands for the number. -/
def Denotes (o : Option UInt64) (n : Nat) : Prop := ∃ w, o = some w ∧ w.toNat = n

theorem denotes_some (w : UInt64) : Denotes (some w) w.toNat := ⟨w, rfl, rfl⟩

theorem denotes_ofNat? {n : Nat} (h : n < 2 ^ 64) : Denotes (ofNat? n) n :=
  ⟨_, if_pos h, UInt64.toNat_ofNat_of_lt' h⟩

theorem Denotes.bind {o : Option UInt64} {f : UInt64 → Option UInt64} {n m : Nat} (ho : Denotes o n)
    (hf : ∀ w, w.toNat = n → Denotes (f w) m) : Denotes (o >>= f) m := by
  obtain ⟨w, rfl, hw⟩ := ho
  exact hf w hw

theorem denotes_add? (ha : a.toNat = m) (hb : b.toNat = n) (h : m + n < 2 ^ 64) :
    Denotes (add? a b) (m + n) := by
  subst ha hb
  exact denotes_ofNat? h

theorem denotes_mul? (ha : a.toNat = m) (hb : b.toNat = n) (h : m * n < 2 ^ 64) :
    Denotes (mul? a b) (m * n) := by
  subst ha hb
  exact denotes_ofNat? h

theorem denotes_sub? (ha : a.toNat = m) (hb : b.toNat = n) (h : n ≤ m) : Denotes (sub? a b) (m - n) := by
  subst ha hb
  rw [← UInt64.le_iff_toNat_le] at h
  exact ⟨a - b, if_pos h, UInt64.toNat_sub_of_le _ _ h⟩

/-- A quotient rounded up never leaves 64 bits: where it is rounded, the divisor is at least two. -/
theorem denotes_ceilDiv? (ha : a.toNat = m) (hb : b.toNat = n) (hn : 0 < n) :
    Denotes (ceilDiv? a b) (ceilDiv m n) := by
  subst ha hb
  have hzero : a % b = 0 ↔ a.toNat % b.toNat = 0 := by
    rw [← UInt64.toNat_inj, UInt64.toNat_mod, UInt64.toNat_zero]
  rw [ceilDiv?, ceilDiv_eq hn]
  by_cases h : a % b = 0
  · rw [if_pos h, if_pos (hzero.1 h), ← UInt64.toNat_div]
    exact denotes_some _
  · rw [if_neg h, if_neg (h ∘ hzero.2)]
    have htwo : 2 ≤ b.toNat :=
      Nat.lt_of_le_of_ne hn fun hone => h (hzero.2 (by rw [← hone, Nat.mod_one]))
    have hhalf : a.toNat / b.toNat ≤ a.toNat / 2 := Nat.div_le_div_left htwo (by decide)
    have := a.toNat_lt
    exact denotes_add? (UInt64.toNat_div a b) UInt64.toNat_one (by omega)

theorem denotes_padded? (ha : a.toNat = m) (h : paddedSize m < 2 ^ 64) :
    Denotes (padded? a) (paddedSize m) :=
  (denotes_ceilDiv? ha toNat_blockSize (by decide)).bind fun _ hw => denotes_mul? hw toNat_blockSize h

theorem toNat_of_ofNat? (h : ofNat? n = some a) : a.toNat = n := by
  rw [ofNat?] at h
  split at h
  case isTrue hlt =>
    cases h
    exact UInt64.toNat_ofNat_of_lt' hlt
  case isFalse => cases h

theorem toNat_of_add? (h : add? a b = some c) : c.toNat = a.toNat + b.toNat := toNat_of_ofNat? h

theorem toNat_of_sub? (h : sub? a b = some c) : c.toNat = a.toNat - b.toNat := by
  rw [sub?] at h
  split at h
  case isTrue hle =>
    cases h
    exact UInt64.toNat_sub_of_le _ _ hle
  case isFalse => cases h

theorem ofNat?_eq_none (h : 2 ^ 64 ≤ n) : ofNat? n = none := if_neg (Nat.not_lt.2 h)

/-! ### Results that stop at the greatest word -/

/-- The greatest word. -/
def greatest : UInt64 := .ofNat (2 ^ 64 - 1)

/-- The sum, or the greatest word where the sum leaves 64 bits. -/
def addUpTo (a b : UInt64) : UInt64 := (add? a b).getD greatest

/-- The product, or the greatest word where the product leaves 64 bits. -/
def mulUpTo (a b : UInt64) : UInt64 := (mul? a b).getD greatest

theorem toNat_getD_ofNat? (n : Nat) : ((ofNat? n).getD greatest).toNat = min n (2 ^ 64 - 1) := by
  by_cases hn : n < 2 ^ 64
  · obtain ⟨w, hw, hwn⟩ := denotes_ofNat? hn
    rw [hw, Option.getD_some, hwn, Nat.min_eq_left (Nat.le_sub_one_of_lt hn)]
  · have hgreatest : greatest.toNat = 2 ^ 64 - 1 := UInt64.toNat_ofNat_of_lt' (by decide)
    rw [ofNat?_eq_none (Nat.not_lt.1 hn), Option.getD_none, hgreatest, Nat.min_eq_right (by omega)]

theorem toNat_addUpTo (a b : UInt64) : (addUpTo a b).toNat = min (a.toNat + b.toNat) (2 ^ 64 - 1) :=
  toNat_getD_ofNat? _

theorem toNat_mulUpTo (a b : UInt64) : (mulUpTo a b).toNat = min (a.toNat * b.toNat) (2 ^ 64 - 1) :=
  toNat_getD_ofNat? _

end Word

end BlockStore
