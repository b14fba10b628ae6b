import BlockStore.Proofs.Words
import BlockStore.Timestamp

/-!
# The parts of timestamps

A time comes as whole seconds and nanoseconds after the epoch and is kept as one 64-bit count of nanoseconds.
On the way the product and the sum each stop at the greatest word. Where the product stops, the sum would stop
as well, so the two come to one: the count is exact up to the last timestamp, and every later time becomes that
one.

The way back is a quotient and a remainder, and they are the only parts with less than a second of nanoseconds
that lead to the timestamp. Parts are therefore had back exactly if nothing was carried out of the nanoseconds
and nothing was stopped.

## Main definitions

* `Timestamp.ofWords`, `Timestamp.toWords`: the same in words, from the parts and back.

## Main results

* `Timestamp.toNat_ofParts`: the count of a timestamp.
* `Timestamp.toParts_eq_iff`: the parts of a timestamp.
* `Timestamp.ofDuration_eq`: the carry of a duration changes nothing.
* `Timestamp.packs_parts`: parts and timestamps, both ways.
-/

namespace BlockStore

namespace Timestamp

variable {seconds seconds' nanos nanos' : Nat}

theorem ext_toNat {t t' : Timestamp} (h : t.nanos.toNat = t'.nanos.toNat) : t = t' :=
  congrArg Timestamp.mk (UInt64.toNat_inj.1 h)

theorem toNat_saturate (n : Nat) : (saturate n).toNat = min n (2 ^ 64 - 1) :=
  UInt64.toNat_ofNat_of_lt' (Nat.lt_of_le_of_lt (Nat.min_le_right _ _) (by decide))

/-! ### From the parts -/

/-- Both steps together stop where the exact count does. -/
theorem toNat_ofParts (seconds nanos : Nat) :
    (ofParts seconds nanos).nanos.toNat = min (2 ^ 64 - 1) (seconds * nanosPerSecond + nanos) := by
  rw [ofParts, toNat_saturate, toNat_saturate]
  generalize seconds * nanosPerSecond = product
  by_cases hproduct : product ≤ 2 ^ 64 - 1
  · rw [Nat.min_eq_left hproduct, Nat.min_comm]
  · -- The sum is past the last timestamp, with the stopped product as with the exact one.
    rw [Nat.min_eq_right (Nat.le_of_not_le hproduct), Nat.min_eq_right (Nat.le_add_right _ _),
      Nat.min_eq_left (by omega)]

theorem ofParts_mono (hs : seconds ≤ seconds') (hn : nanos ≤ nanos') :
    (ofParts seconds nanos).nanos ≤ (ofParts seconds' nanos').nanos := by
  rw [UInt64.le_iff_toNat_le, toNat_ofParts, toNat_ofParts]
  have hcount : seconds * nanosPerSecond + nanos ≤ seconds' * nanosPerSecond + nanos' :=
    Nat.add_le_add (Nat.mul_le_mul_right _ hs) hn
  omega

/-- The seconds that a duration carries out of its nanoseconds are counted all the same. -/
theorem ofDuration_eq (seconds nanos : Nat) : ofDuration seconds nanos = ofParts seconds nanos := by
  have hcarry : (seconds + nanos / nanosPerSecond) * nanosPerSecond + nanos % nanosPerSecond =
      seconds * nanosPerSecond + nanos := by
    rw [Nat.add_mul, Nat.add_assoc, Nat.div_add_mod']
  refine ext_toNat ?_
  rw [ofDuration, toNat_ofParts, toNat_ofParts, hcarry]

/-! ### Back to the parts -/

/-- Parts with less than a second of nanoseconds are those of the timestamp that they add up to. -/
theorem toParts_eq_iff (t : Timestamp) : t.toParts = (seconds, nanos) ↔
    nanos < nanosPerSecond ∧ seconds * nanosPerSecond + nanos = t.nanos.toNat := by
  rw [toParts, Prod.mk.injEq, Nat.div_mod_unique (by decide), Nat.add_comm, Nat.mul_comm, and_comm]

theorem toParts_lt_and_sum (t : Timestamp) : t.toParts.2 < nanosPerSecond ∧
    t.toParts.1 * nanosPerSecond + t.toParts.2 = t.nanos.toNat :=
  (toParts_eq_iff t).1 rfl

theorem ofParts_toParts (t : Timestamp) : ofParts t.toParts.1 t.toParts.2 = t := by
  refine ext_toNat ?_
  rw [toNat_ofParts, (toParts_lt_and_sum t).2, Nat.min_eq_right (Nat.le_sub_one_of_lt t.nanos.toNat_lt)]

theorem toParts_ofParts_iff : (ofParts seconds nanos).toParts = (seconds, nanos) ↔
    nanos < nanosPerSecond ∧ seconds * nanosPerSecond + nanos < 2 ^ 64 := by
  have hexact (n : Nat) : n = min (2 ^ 64 - 1) n ↔ n < 2 ^ 64 := by omega
  rw [toParts_eq_iff, toNat_ofParts, hexact]

/-- The last timestamp has parts that are had back, and a nanosecond later there are none. -/
example : (ofParts 18446744073 709551615).toParts = (18446744073, 709551615) ∧
    (ofParts 18446744073 709551616).toParts = (18446744073, 709551615) := by
  decide

/-! ### In words -/

open Word

/-- The time so many seconds and nanoseconds after the epoch. -/
def ofWords (seconds : UInt64) (nanos : UInt32) : Timestamp :=
  ⟨addUpTo (mulUpTo seconds (.ofNat nanosPerSecond)) nanos.toUInt64⟩

/-- Whole seconds, and the nanoseconds that remain, cut to 32 bits. -/
def toWords (t : Timestamp) : UInt64 × UInt32 :=
  (t.nanos / .ofNat nanosPerSecond, (t.nanos % .ofNat nanosPerSecond).toUInt32)

theorem toNat_nanosPerSecond : (UInt64.ofNat nanosPerSecond).toNat = nanosPerSecond := rfl

theorem ofWords_eq (seconds : UInt64) (nanos : UInt32) :
    ofWords seconds nanos = ofParts seconds.toNat nanos.toNat := by
  refine ext_toNat ?_
  rw [ofWords, toNat_addUpTo, toNat_mulUpTo, toNat_nanosPerSecond, UInt32.toNat_toUInt64, ofParts,
    toNat_saturate, toNat_saturate]

/-- The nanoseconds of less than a second fit in 32 bits. -/
theorem toWords_eq (t : Timestamp) : (t.toWords.1.toNat, t.toWords.2.toNat) = t.toParts := by
  have hcut : t.nanos.toNat % nanosPerSecond < 2 ^ 32 :=
    Nat.lt_trans (Nat.mod_lt _ (by decide)) (by decide : nanosPerSecond < 2 ^ 32)
  rw [toWords, toParts, UInt64.toNat_div, UInt64.toNat_toUInt32, UInt64.toNat_mod, toNat_nanosPerSecond,
    Nat.mod_eq_of_lt hcut]

/-- **Timestamps are exact up to the last one.** The timestamp of any seconds and nanoseconds, be these more
than a second, is their exact count or, for a later time, the last timestamp, so it never decreases with either;
a duration that carries its nanoseconds has the same. A timestamp has less than a second of nanoseconds and is
the timestamp of its parts. Seconds and nanoseconds are the parts of their timestamp exactly if the
nanoseconds are less than a second and the count fits in 64 bits. Words come to the same as numbers. -/
theorem packs_parts :
    (∀ seconds nanos,
      (ofParts seconds nanos).nanos.toNat = min (2 ^ 64 - 1) (seconds * 10 ^ 9 + nanos)) ∧
      (∀ seconds seconds' nanos nanos', seconds ≤ seconds' → nanos ≤ nanos' →
        (ofParts seconds nanos).nanos ≤ (ofParts seconds' nanos').nanos) ∧
      (∀ seconds nanos, ofDuration seconds nanos = ofParts seconds nanos) ∧
      (∀ t : Timestamp, t.toParts.2 < 10 ^ 9 ∧ ofParts t.toParts.1 t.toParts.2 = t) ∧
      (∀ seconds nanos, (ofParts seconds nanos).toParts = (seconds, nanos) ↔
        nanos < 10 ^ 9 ∧ seconds * 10 ^ 9 + nanos < 2 ^ 64) ∧
      (∀ (seconds : UInt64) (nanos : UInt32),
        ofWords seconds nanos = ofParts seconds.toNat nanos.toNat) ∧
      ∀ t : Timestamp, (t.toWords.1.toNat, t.toWords.2.toNat) = t.toParts := by
  refine ⟨toNat_ofParts, ?_, ofDuration_eq, ?_, ?_, ofWords_eq, toWords_eq⟩
  · intro seconds seconds' nanos nanos' hs hn
    exact ofParts_mono hs hn
  · intro t
    exact ⟨(toParts_lt_and_sum t).1, ofParts_toParts t⟩
  · intro seconds nanos
    exact toParts_ofParts_iff

end Timestamp

end BlockStore
