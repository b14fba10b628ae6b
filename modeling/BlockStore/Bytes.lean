/-!
# Byte strings

Positions, little-endian numbers and replacement of a range in a `ByteArray`. Reading is total: a
byte past the end is zero, so that record decoders need no side condition.

## Main definitions

* `byteAt`: the byte at a position.
* `leNat`, `leBytes`: the number in a run of bytes, low byte first, and the run that holds a number.
* `zeros`, `fit`, `overwrite`: a run of zero bytes, a byte string cut or zero-padded to a length,
  and a byte string with one range replaced.

## Main results

* `ext_byteAt`: byte strings of one size with the same bytes are equal.
* `byteAt_append`, `byteAt_extract`, `byteAt_zeros`, `byteAt_fit`, `byteAt_overwrite`, `byteAt_set`:
  the bytes of what is put together.
-/

namespace BlockStore

/-- The byte at position `i`, and zero past the end. -/
def byteAt (b : ByteArray) (i : Nat) : UInt8 :=
  if h : i < b.size then b[i] else 0

theorem byteAt_eq_getD (b : ByteArray) (i : Nat) : byteAt b i = b.data[i]?.getD 0 := by
  unfold byteAt
  split
  · rename_i h
    rw [ByteArray.getElem_eq_getElem_data, Array.getElem?_eq_getElem (by simpa using h)]
    rfl
  · rename_i h
    rw [Array.getElem?_eq_none (by simpa using h)]
    rfl

theorem byteAt_of_le {b : ByteArray} {i : Nat} (h : b.size ≤ i) : byteAt b i = 0 :=
  dif_neg (by omega)

theorem ext_byteAt {a b : ByteArray} (hsize : a.size = b.size)
    (h : ∀ i, byteAt a i = byteAt b i) : a = b := by
  refine ByteArray.ext_getElem hsize ?_
  intro i ha hb
  simpa [byteAt, ha, hb] using h i

theorem byteAt_append (a b : ByteArray) (i : Nat) :
    byteAt (a ++ b) i = if i < a.size then byteAt a i else byteAt b (i - a.size) := by
  simp only [byteAt_eq_getD, ByteArray.data_append, Array.getElem?_append]
  exact apply_ite (Option.getD · 0) (i < a.size) _ _

theorem byteAt_extract (b : ByteArray) (start stop i : Nat) :
    byteAt (b.extract start stop) i = if start + i < stop then byteAt b (start + i) else 0 := by
  simp only [byteAt_eq_getD, ByteArray.data_extract, Array.getElem?_extract]
  by_cases h : start + i < stop <;> by_cases hb : start + i < b.data.size
  · rw [if_pos (by omega), if_pos h]
  · rw [if_neg (by omega), if_pos h, Array.getElem?_eq_none (by omega)]
  · rw [if_neg (by omega), if_neg h]; rfl
  · rw [if_neg (by omega), if_neg h]; rfl

theorem data_set (b : ByteArray) (i : Nat) (x : UInt8) : (b.set! i x).data = b.data.set! i x := rfl

@[simp] theorem size_set (b : ByteArray) (i : Nat) (x : UInt8) : (b.set! i x).size = b.size := by
  rw [← ByteArray.size_data, data_set, Array.set!_eq_setIfInBounds, Array.size_setIfInBounds,
    ByteArray.size_data]

/-- Nothing is set past the end. -/
theorem byteAt_set (b : ByteArray) (i : Nat) (x : UInt8) (j : Nat) :
    byteAt (b.set! i x) j = if i = j ∧ j < b.size then x else byteAt b j := by
  simp only [byteAt_eq_getD, data_set, Array.set!_eq_setIfInBounds, Array.getElem?_setIfInBounds,
    ← ByteArray.size_data]
  grind

/-- What was set is put back. -/
theorem set_set_byteAt (b : ByteArray) (i : Nat) (x : UInt8) :
    (b.set! i x).set! i (byteAt b i) = b := by
  refine ext_byteAt (by rw [size_set, size_set]) fun j => ?_
  rw [byteAt_set, byteAt_set]
  grind

/-- The number held by the `n` bytes of `b` from position `i` on, low byte first. -/
def leNat (b : ByteArray) (i : Nat) : Nat → Nat
  | 0 => 0
  | n + 1 => (byteAt b i).toNat + 256 * leNat b (i + 1) n

/-- The low `n` bytes of `x`, low byte first. -/
def leBytes : Nat → Nat → List UInt8
  | 0, _ => []
  | n + 1, x => UInt8.ofNat x :: leBytes n (x / 256)

@[simp] theorem length_leBytes (n x : Nat) : (leBytes n x).length = n := by
  induction n generalizing x with
  | zero => rfl
  | succ n ih => simp [leBytes, ih]

/-- The byte string with the bytes of a list. -/
def bytesOf (l : List UInt8) : ByteArray := ⟨l.toArray⟩

@[simp] theorem size_bytesOf (l : List UInt8) : (bytesOf l).size = l.length := rfl

/-- A run of `n` zero bytes. -/
def zeros (n : Nat) : ByteArray := ⟨Array.replicate n 0⟩

@[simp] theorem size_zeros (n : Nat) : (zeros n).size = n := Array.size_replicate

@[simp] theorem byteAt_zeros (n i : Nat) : byteAt (zeros n) i = 0 := by
  rw [byteAt_eq_getD]
  simp only [zeros, Array.getElem?_replicate]
  split <;> rfl

/-- `b` cut or zero-padded to exactly `n` bytes. -/
def fit (b : ByteArray) (n : Nat) : ByteArray :=
  if b.size = n then b
  else if n < b.size then b.extract 0 n
  else b ++ zeros (n - b.size)

@[simp] theorem size_fit (b : ByteArray) (n : Nat) : (fit b n).size = n := by
  unfold fit
  split
  · assumption
  · split
    · rw [ByteArray.size_extract]; omega
    · rw [ByteArray.size_append, size_zeros]; omega

theorem byteAt_fit (b : ByteArray) (n i : Nat) :
    byteAt (fit b n) i = if i < n then byteAt b i else 0 := by
  unfold fit
  split
  · grind [byteAt_of_le]
  · split
    · rw [byteAt_extract]; simp
    · rw [byteAt_append]
      grind [byteAt_of_le, byteAt_zeros]

/-- `dst` with the bytes from position `i` on replaced by those of `src`. -/
def overwrite (dst : ByteArray) (i : Nat) (src : ByteArray) : ByteArray :=
  src.copySlice 0 dst i src.size

theorem size_overwrite {dst src : ByteArray} {i : Nat} (h : i + src.size ≤ dst.size) :
    (overwrite dst i src).size = dst.size := by
  have hs : src.data.size = src.size := rfl
  have hd : dst.data.size = dst.size := rfl
  change Array.size _ = _
  simp only [Array.size_append, Array.size_extract, hs, hd]
  omega

theorem byteAt_overwrite {dst src : ByteArray} {i : Nat} (h : i + src.size ≤ dst.size) (j : Nat) :
    byteAt (overwrite dst i src) j =
      if i ≤ j ∧ j < i + src.size then byteAt src (j - i) else byteAt dst j := by
  have hs : src.data.size = src.size := rfl
  have hd : dst.data.size = dst.size := rfl
  have h0 : (overwrite dst i src).data = dst.data.extract 0 i ++ src.data ++
      dst.data.extract (i + src.size) dst.data.size := by
    simp [overwrite, ByteArray.copySlice, Array.extract_eq_self_of_le (Nat.le_of_eq hs)]
  simp only [byteAt_eq_getD, h0, Array.getElem?_append, Array.getElem?_extract, Array.size_append,
    Array.size_extract, hs, hd]
  grind

end BlockStore
