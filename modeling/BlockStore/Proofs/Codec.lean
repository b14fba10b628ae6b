import BlockStore.DedupTable
import BlockStore.KeyTable
import BlockStore.Superblock
import BlockStore.Volume.Update
import Mathlib.Algebra.Group.Nat.Defs

/-!
# Records and their bytes

What is encoded is decoded again, wherever in a block its bytes lie. Every decoder here reads a fixed
range through `byteAt`, so all that matters of a byte string is that range: `decode_congr` and
`leNat_congr` say so, and the round trips follow from the bytes of the encoded form.

## Main results

* `leNat_leBytes`: the number in the run of bytes that holds it.
* `Record.decode_encode`, `Block.record_setRecord`, `Block.record_ofRecord`: records in a block.
* `Superblock.decode_encode`: the superblock at the start of a byte string.
* `Volume.pointer_pointerBlock`: the pointer in the block made for it.
-/

namespace BlockStore

/-! ### Numbers -/

theorem byteAt_bytesOf (l : List UInt8) (i : Nat) : byteAt (bytesOf l) i = l[i]?.getD 0 := by
  rw [byteAt_eq_getD, bytesOf, List.getElem?_toArray]

/-- A number depends only on the bytes that hold it. -/
theorem leNat_congr {a b : ByteArray} {i j n : Nat}
    (h : ∀ k < n, byteAt a (i + k) = byteAt b (j + k)) : leNat a i n = leNat b j n := by
  induction n generalizing i j with
  | zero => rfl
  | succ n ih =>
    have h0 : byteAt a i = byteAt b j := by simpa using h 0 (by omega)
    have hrest : leNat a (i + 1) n = leNat b (j + 1) n := ih fun k hk => by
      have := h (k + 1) (by omega)
      rwa [Nat.add_comm k 1, ← Nat.add_assoc, ← Nat.add_assoc] at this
    rw [leNat, leNat, h0, hrest]

theorem leNat_leBytes (before after : List UInt8) (n x : Nat) :
    leNat (bytesOf (before ++ leBytes n x ++ after)) before.length n = x % 256 ^ n := by
  induction n generalizing before x with
  | zero => simp [leNat, Nat.mod_one]
  | succ n ih =>
    have hfirst : byteAt (bytesOf (before ++ leBytes (n + 1) x ++ after)) before.length
        = UInt8.ofNat x := by
      rw [byteAt_bytesOf]
      simp [leBytes]
    have hrest := ih (before ++ [UInt8.ofNat x]) (x / 256)
    rw [List.length_append, List.length_singleton, List.append_assoc before] at hrest
    rw [leNat, hfirst]
    simp only [leBytes, List.append_assoc, List.cons_append, List.nil_append] at hrest ⊢
    rw [hrest, UInt8.toNat_ofNat', Nat.pow_succ 256, Nat.mul_comm _ 256, Nat.mod_mul]

/-- The number in a byte string that holds its bytes from position `i` on. -/
theorem leNat_of_byteAt {b : ByteArray} {i n x : Nat} (hx : x < 256 ^ n)
    (h : ∀ k < n, byteAt b (i + k) = byteAt (bytesOf (leBytes n x)) k) : leNat b i n = x := by
  have hread := leNat_leBytes [] [] n x
  rw [List.nil_append, List.append_nil, List.length_nil, Nat.mod_eq_of_lt hx] at hread
  rw [← hread]
  exact leNat_congr fun k hk => by rw [h k hk, Nat.zero_add]

/-! ### Records -/

namespace Key

theorem byteAt_ofBytes (b : ByteArray) (i j : Nat) (h : j < keySize) :
    byteAt (ofBytes b i).bytes j = byteAt b (i + j) := by
  rw [ofBytes, byteAt_fit, if_pos h, byteAt_extract, if_pos (by omega)]

theorem ofBytes_eq {b : ByteArray} {i : Nat} {k : Key}
    (h : ∀ j < keySize, byteAt b (i + j) = byteAt k.bytes j) : ofBytes b i = k := by
  refine Key.ext (ext_byteAt (by rw [size_eq, size_eq]) fun j => ?_)
  by_cases hj : j < keySize
  · rw [byteAt_ofBytes b i j hj, h j hj]
  · rw [byteAt_of_le (by rw [size_eq]; omega), byteAt_of_le (by rw [size_eq]; omega)]

end Key

namespace Record

/-- A record depends only on its 32 bytes. -/
theorem decode_congr {a b : ByteArray} {i j : Nat}
    (h : ∀ k < recordSize, byteAt a (i + k) = byteAt b (j + k)) : decode a i = decode b j := by
  have hnat (m n : Nat) (hmn : m + n ≤ recordSize) : leNat a (i + m) n = leNat b (j + m) n :=
    leNat_congr fun k hk => by
      have := h (m + k) (by omega)
      rwa [← Nat.add_assoc, ← Nat.add_assoc] at this
  have hkey : Key.ofBytes a i = Key.ofBytes b j := Key.ofBytes_eq fun k hk => by
    rw [Key.byteAt_ofBytes b j k hk, h k (by simp only [keySize, recordSize] at *; omega)]
  rw [decode, decode, hkey, hnat 20 2 (by decide), hnat 22 2 (by decide), hnat 24 8 (by decide)]

theorem encode_eq (r : Record) :
    r.encode = bytesOf (r.key.toList ++ (leBytes 2 r.flags.toNat ++ leBytes 2 r.refCount.toNat ++
      leBytes 8 r.word.toNat)) := by
  apply ByteArray.ext
  simp [encode, bytesOf, Key.toList]

theorem decode_encode (r : Record) : decode r.encode 0 = r := by
  have hlen := r.key.length_toList
  have hkey : Key.ofBytes r.encode 0 = r.key := Key.ofBytes_eq fun j hj => by
    rw [Nat.zero_add, encode, byteAt_append, if_pos (by rw [r.key.size_eq]; exact hj)]
  have hflags := leNat_leBytes r.key.toList (leBytes 2 r.refCount.toNat ++ leBytes 8 r.word.toNat)
    2 r.flags.toNat
  have hcount := leNat_leBytes (r.key.toList ++ leBytes 2 r.flags.toNat) (leBytes 8 r.word.toNat)
    2 r.refCount.toNat
  have hword := leNat_leBytes
    (r.key.toList ++ leBytes 2 r.flags.toNat ++ leBytes 2 r.refCount.toNat) [] 8 r.word.toNat
  simp only [List.length_append, length_leBytes, hlen, keySize, List.append_assoc, List.append_nil,
    Nat.reduceAdd] at hflags hcount hword
  have hf : r.flags.toNat < 256 ^ 2 := r.flags.toNat_lt
  have hc : r.refCount.toNat < 256 ^ 2 := r.refCount.toNat_lt
  have hw : r.word.toNat < 256 ^ 8 := r.word.toNat_lt
  rw [Nat.mod_eq_of_lt hf] at hflags
  rw [Nat.mod_eq_of_lt hc] at hcount
  rw [Nat.mod_eq_of_lt hw] at hword
  rw [decode, hkey]
  simp only [encode_eq, Nat.zero_add, List.append_assoc, hflags, hcount, hword, UInt16.ofNat_toNat,
    UInt64.ofNat_toNat]

end Record

namespace Block

theorem recordSize_le {i : Nat} (hi : i < recordsPerBlock) : i * recordSize + recordSize ≤ blockSize := by
  rw [← Nat.succ_mul, show blockSize = recordsPerBlock * recordSize by decide]
  exact Nat.mul_le_mul_right _ hi

/-- Replacing a record replaces its 32 bytes. -/
theorem byteAt_setRecord (b : Block) {i : Nat} (r : Record) (hi : i < recordsPerBlock) (k : Nat) :
    byteAt (b.setRecord i r).bytes k =
      if i * recordSize ≤ k ∧ k < i * recordSize + recordSize then
        byteAt r.encode (k - i * recordSize) else byteAt b.bytes k := by
  have hfits : i * recordSize + r.encode.size ≤ blockSize := by
    rw [r.size_encode]
    exact recordSize_le hi
  rw [setRecord, patch, dif_pos hfits, byteAt_overwrite (by rw [b.size_eq]; exact hfits), r.size_encode]

theorem record_setRecord (b : Block) {i j : Nat} (r : Record) (hi : i < recordsPerBlock)
    (hj : j < recordsPerBlock) : (b.setRecord i r).record j = if i = j then r else b.record j := by
  by_cases h : i = j
  · subst h
    rw [if_pos rfl, record, ← (Record.decode_congr fun k hk => ?_ :
      Record.decode r.encode 0 = Record.decode (b.setRecord i r).bytes (i * recordSize)),
      Record.decode_encode]
    rw [byteAt_setRecord b r hi, if_pos (by omega), Nat.zero_add, Nat.add_sub_cancel_left]
  · rw [if_neg h, record, record]
    refine Record.decode_congr ?_
    intro k hk
    rw [byteAt_setRecord b r hi, if_neg]
    simp only [recordSize] at *
    omega

theorem record_ofRecord (r : Record) {i : Nat} (hi : i < recordsPerBlock) :
    (ofRecord r).record i = r := by
  have hsize (n : Nat) (acc : ByteArray) :
      ((List.replicate n r.encode).foldl (· ++ ·) acc).size = acc.size + n * recordSize := by
    induction n generalizing acc with
    | zero => simp
    | succ n ih =>
      rw [List.replicate_succ, List.foldl_cons, ih, ByteArray.size_append, r.size_encode]
      rw [Nat.succ_mul]
      omega
  -- Bytes before `n` copies are those of the start, and copy `m` holds the record.
  have hbefore (n k : Nat) (acc : ByteArray) (hk : k < acc.size) :
      byteAt ((List.replicate n r.encode).foldl (· ++ ·) acc) k = byteAt acc k := by
    induction n generalizing acc with
    | zero => rfl
    | succ n ih =>
      rw [List.replicate_succ, List.foldl_cons, ih _ (by rw [ByteArray.size_append]; omega),
        byteAt_append, if_pos hk]
  have hcopy (m n k : Nat) (acc : ByteArray) (hm : m < n) (hk : k < recordSize) :
      byteAt ((List.replicate n r.encode).foldl (· ++ ·) acc) (acc.size + m * recordSize + k) =
        byteAt r.encode k := by
    induction m generalizing n acc with
    | zero =>
      obtain ⟨n, rfl⟩ := Nat.exists_eq_succ_of_ne_zero (Nat.ne_of_gt hm)
      rw [List.replicate_succ, List.foldl_cons,
        hbefore _ _ _ (by rw [ByteArray.size_append, r.size_encode]; omega), byteAt_append,
        if_neg (by omega), Nat.zero_mul, Nat.add_zero, Nat.add_sub_cancel_left]
    | succ m ih =>
      obtain ⟨n, rfl⟩ := Nat.exists_eq_succ_of_ne_zero (Nat.ne_of_gt (Nat.zero_lt_of_lt hm))
      rw [List.replicate_succ, List.foldl_cons, ← ih n (acc ++ r.encode) (by omega),
        ByteArray.size_append, r.size_encode, Nat.succ_mul]
      congr 1
      omega
  have hempty : (ByteArray.empty).size = 0 := rfl
  have hbs := recordSize_le hi
  rw [record, ← Record.decode_encode r]
  refine Record.decode_congr ?_
  intro k hk
  rw [ofRecord, ofBytes, byteAt_fit, if_pos (by omega), Nat.zero_add, Record.decode_encode]
  have := hcopy i recordsPerBlock k .empty hi hk
  rwa [hempty, Nat.zero_add] at this

end Block

/-! ### The superblock -/

namespace Superblock

theorem size_encode (sb : Superblock) : sb.encode.size = encodedSize := by
  simp [encode, encodedSize]

/-- The superblock at the start of any byte string that starts with its bytes. -/
theorem decode_of_byteAt {b : ByteArray} {sb : Superblock} (hsize : encodedSize ≤ b.size)
    (h : ∀ k < encodedSize, byteAt b k = byteAt sb.encode k) : decode b = .ok sb := by
  have hfield (i n : Nat) (hin : i + n ≤ encodedSize) : leNat b i n = leNat sb.encode i n :=
    leNat_congr fun k hk => h (i + k) (by omega)
  have hread (before after : List UInt8) (n x i : Nat) (hx : x < 256 ^ n)
      (hi : before.length = i) (hencode : sb.encode = bytesOf (before ++ leBytes n x ++ after))
      (hin : i + n ≤ encodedSize) : leNat b i n = x := by
    rw [hfield i n hin, hencode, ← hi, leNat_leBytes, Nat.mod_eq_of_lt hx]
  have h16 (x : UInt16) : x.toNat < 256 ^ 2 := x.toNat_lt
  have h32 (x : UInt32) : x.toNat < 256 ^ 4 := x.toNat_lt
  have h64 (x : UInt64) : x.toNat < 256 ^ 8 := x.toNat_lt
  rw [decode, if_neg (by omega)]
  congr 1
  rw [hread [] _ 2 _ 0 (h16 sb.magic) rfl (by simp only [encode, List.append_assoc]; rfl)
      (by decide),
    hread (leBytes 2 sb.magic.toNat) _ 2 _ 2 (h16 sb.size) (by simp)
      (by simp only [encode, List.append_assoc]; rfl) (by decide),
    hread (leBytes 2 sb.magic.toNat ++ leBytes 2 sb.size.toNat) _ 8 _ 4 (h64 sb.bitmapOffset)
      (by simp) (by simp only [encode, List.append_assoc]; rfl) (by decide),
    hread (leBytes 2 sb.magic.toNat ++ leBytes 2 sb.size.toNat ++
        leBytes 8 sb.bitmapOffset.toNat) _ 8 _ 12 (h64 sb.keysOffset)
      (by simp) (by simp only [encode, List.append_assoc]; rfl) (by decide),
    hread (leBytes 2 sb.magic.toNat ++ leBytes 2 sb.size.toNat ++
        leBytes 8 sb.bitmapOffset.toNat ++ leBytes 8 sb.keysOffset.toNat) _ 8 _ 20
      (h64 sb.dataOffset) (by simp) (by simp only [encode, List.append_assoc]; rfl) (by decide),
    hread (leBytes 2 sb.magic.toNat ++ leBytes 2 sb.size.toNat ++
        leBytes 8 sb.bitmapOffset.toNat ++ leBytes 8 sb.keysOffset.toNat ++
        leBytes 8 sb.dataOffset.toNat) _ 4 _ 28
      (h32 sb.blockCount) (by simp) (by simp only [encode, List.append_assoc]; rfl) (by decide),
    hread (leBytes 2 sb.magic.toNat ++ leBytes 2 sb.size.toNat ++
        leBytes 8 sb.bitmapOffset.toNat ++ leBytes 8 sb.keysOffset.toNat ++
        leBytes 8 sb.dataOffset.toNat ++ leBytes 4 sb.blockCount.toNat) _ 8 _ 32
      (h64 sb.flags) (by simp) (by simp only [encode, List.append_assoc]; rfl) (by decide),
    hread (leBytes 2 sb.magic.toNat ++ leBytes 2 sb.size.toNat ++
        leBytes 8 sb.bitmapOffset.toNat ++ leBytes 8 sb.keysOffset.toNat ++
        leBytes 8 sb.dataOffset.toNat ++ leBytes 4 sb.blockCount.toNat ++
        leBytes 8 sb.flags.toNat) [] 8 _ 40
      (h64 sb.volumeSize) (by simp) (by simp only [encode, List.append_assoc, List.append_nil])
      (by decide)]
  simp only [UInt16.ofNat_toNat, UInt32.ofNat_toNat, UInt64.ofNat_toNat]

theorem decode_ofBytes_encode (sb : Superblock) :
    decode (Block.ofBytes sb.encode).bytes = .ok sb := by
  have hsize := sb.size_encode
  refine decode_of_byteAt (by rw [(Block.ofBytes _).size_eq]; decide) ?_
  intro k hk
  rw [Block.ofBytes, byteAt_fit, if_pos]
  exact Nat.lt_trans hk (by decide)

end Superblock

/-! ### Pointers -/

namespace Volume

/-- The pointer in a data block of a deduplicating volume. -/
@[irreducible] def pointer (b : Block) : Nat := leNat b.bytes 0 8

theorem pointer_pointerBlock {p : Nat} (h : p < 2 ^ 64) : pointer (pointerBlock p) = p := by
  rw [pointer]
  refine leNat_of_byteAt (by simpa using h) ?_
  intro k hk
  rw [Nat.zero_add, pointerBlock, Block.ofBytes, byteAt_fit, if_pos]
  exact Nat.lt_trans hk (by decide)

@[simp] theorem pointer_zero : pointer .zero = 0 := by
  rw [pointer]
  refine leNat_of_byteAt (by decide) ?_
  intro k hk
  have : ∀ k < 8, byteAt (bytesOf (leBytes 8 0)) k = 0 := by decide
  rw [this k hk]
  exact byteAt_zeros _ _

theorem pointerBlock_zero : pointerBlock 0 = .zero := by
  refine Block.ext (ext_byteAt ?_ ?_)
  · rw [Block.size_eq, Block.size_eq]
  · intro k
    have hbytes : ∀ k < 8, byteAt (bytesOf (leBytes 8 0)) k = 0 := by decide
    have hrest : byteAt (bytesOf (leBytes 8 0)) k = 0 := by
      by_cases hk : k < 8
      · exact hbytes k hk
      · exact byteAt_of_le (by simp; omega)
    rw [pointerBlock, Block.ofBytes, byteAt_fit, hrest, Block.zero, byteAt_zeros]
    split <;> rfl

end Volume

end BlockStore
