import BlockStore.Proofs.Margin

/-!
# Records and their byte forms

The superblock and the entries of the two tables have a byte form of fixed size. What is encoded is decoded
again, whatever follows it, and what was decoded from any bytes is encoded as these bytes again. The second
holds of bytes that nobody encoded, too, such as those of a damaged device: mounting and repairing decode them
and write some of them back.

Both come from one fact about each decoder, that it sees each of the bytes of its range and no others.

## Main definitions

* `ByteForm`: a record and its bytes determine each other.

## Main results

* `Superblock.byteAt_eq_of_decode`: a superblock determines its 48 bytes.
* `ByteForm.of_determines`: the second round trip from the first.
* `byteForms_determine`: the three records of a volume have byte forms.
-/

namespace BlockStore

/-- Records have a byte form of a fixed size, where `Decodes b a` says that `a` is read from the start of
`b`. -/
structure ByteForm {α : Type} (size : Nat) (encode : α → ByteArray) (Decodes : ByteArray → α → Prop) :
    Prop where
  /-- What is encoded is decoded again, whatever follows it. -/
  decodes_encode (a : α) (rest : ByteArray) : Decodes (encode a ++ rest) a
  /-- What is decoded is encoded as the bytes that it was read from. -/
  encode_of_decodes {b : ByteArray} {a : α} (h : Decodes b a) : encode a = b.extract 0 size
  /-- Any bytes can be decoded if there are enough of them. -/
  exists_decodes_iff (b : ByteArray) : (∃ a, Decodes b a) ↔ size ≤ b.size

/-- The bytes of a form, then others. -/
theorem byteAt_append_of_size {a : ByteArray} {size k : Nat} (hsize : a.size = size) (hk : k < size)
    (rest : ByteArray) : byteAt (a ++ rest) k = byteAt a k := by
  rw [byteAt_append, if_pos (by omega)]

/-- The start of a byte string is known by its bytes. -/
theorem eq_extract {a b : ByteArray} {size : Nat} (hsize : a.size = size) (hle : size ≤ b.size)
    (h : ∀ k < size, byteAt a k = byteAt b k) : a = b.extract 0 size := by
  refine ext_byteAt (by rw [ByteArray.size_extract]; omega) fun k => ?_
  rw [byteAt_extract, Nat.zero_add]
  split
  case isTrue hk => exact h k hk
  case isFalse hk => exact byteAt_of_le (by omega)

/-- A decoder that sees each of the first bytes and no others has a byte form, if it decodes what was
encoded. -/
theorem ByteForm.of_determines {α : Type} {size : Nat} {encode : α → ByteArray}
    {Decodes : ByteArray → α → Prop} (hsize : ∀ a, (encode a).size = size)
    (hsees : ∀ {a b}, size ≤ b.size → (∀ k < size, byteAt b k = byteAt (encode a) k) → Decodes b a)
    (hdetermines : ∀ {a b b'}, Decodes b a → Decodes b' a → ∀ k < size, byteAt b k = byteAt b' k)
    (hall : ∀ b, (∃ a, Decodes b a) ↔ size ≤ b.size) : ByteForm size encode Decodes where
  decodes_encode a rest := by
    refine hsees ?_ fun k hk => byteAt_append_of_size (hsize a) hk rest
    rw [ByteArray.size_append, hsize]
    exact Nat.le_add_right _ _
  encode_of_decodes {b a} h := by
    have hagain : Decodes (encode a) a := hsees (Nat.le_of_eq (hsize a).symm) fun _ _ => rfl
    exact eq_extract (hsize a) ((hall b).1 ⟨a, h⟩) (hdetermines hagain h)
  exists_decodes_iff := hall

/-! ### Entries -/

namespace Record

/-- A record sees its 32 bytes alone. -/
theorem decode_of_byteAt {b : ByteArray} {r : Record} (h : ∀ k < recordSize, byteAt b k = byteAt r.encode k) :
    decode b 0 = r := by
  rw [← r.decode_encode]
  refine decode_congr fun k hk => ?_
  rw [Nat.zero_add, h k hk]

/-- Whatever has the fields of a record has its byte form. -/
theorem byteForm {α : Type} {toRecord : α → Record} {ofRecord : Record → α}
    (hof : ∀ a, ofRecord (toRecord a) = a) (hto : ∀ r, toRecord (ofRecord r) = r) :
    ByteForm recordSize (fun a => (toRecord a).encode)
      fun b a => recordSize ≤ b.size ∧ ofRecord (decode b 0) = a := by
  refine .of_determines (fun a => (toRecord a).size_encode) ?_ ?_ ?_
  · intro a b hle h
    exact ⟨hle, by rw [decode_of_byteAt h, hof]⟩
  · rintro a b b' ⟨-, rfl⟩ ⟨-, hsame⟩ k hk
    have hrecord : decode b 0 = decode b' 0 := by rw [← hto (decode b' 0), hsame, hto]
    have := byteAt_eq_of_decode hrecord hk
    rwa [Nat.zero_add] at this
  · intro b
    exact ⟨fun ⟨_, hle, _⟩ => hle, fun hle => ⟨_, hle, rfl⟩⟩

end Record

/-! ### The superblock -/

namespace Superblock

theorem exists_decode_iff (b : ByteArray) : (∃ sb, decode b = .ok sb) ↔ encodedSize ≤ b.size := by
  rw [decode]
  split
  case isTrue h =>
    refine iff_of_false ?_ (Nat.not_le.2 h)
    rintro ⟨sb, hsb⟩
    cases hsb
  case isFalse h => exact iff_of_true ⟨_, rfl⟩ (Nat.not_lt.1 h)

/-- A superblock determines the bytes that it is decoded from. -/
theorem byteAt_eq_of_decode {b b' : ByteArray} {sb : Superblock} (h : decode b = .ok sb)
    (h' : decode b' = .ok sb) {k : Nat} (hk : k < encodedSize) : byteAt b k = byteAt b' k := by
  have hfield {i n : Nat} (hnat : leNat b i n = leNat b' i n) (hi : i ≤ k) (hn : k < i + n) :
      byteAt b k = byteAt b' k := by
    have := byteAt_eq_of_leNat hnat (k := k - i) (by omega)
    rwa [Nat.add_sub_cancel' hi] at this
  have h16 {i : Nat} (hi : i ≤ k) (hn : k < i + 2)
      (hsame : UInt16.ofNat (leNat b i 2) = UInt16.ofNat (leNat b' i 2)) : byteAt b k = byteAt b' k := by
    have := congrArg UInt16.toNat hsame
    rw [UInt16.toNat_ofNat_of_lt' (leNat_lt _ _ 2), UInt16.toNat_ofNat_of_lt' (leNat_lt _ _ 2)] at this
    exact hfield this hi hn
  have h32 {i : Nat} (hi : i ≤ k) (hn : k < i + 4)
      (hsame : UInt32.ofNat (leNat b i 4) = UInt32.ofNat (leNat b' i 4)) : byteAt b k = byteAt b' k := by
    have := congrArg UInt32.toNat hsame
    rw [UInt32.toNat_ofNat_of_lt' (leNat_lt _ _ 4), UInt32.toNat_ofNat_of_lt' (leNat_lt _ _ 4)] at this
    exact hfield this hi hn
  have h64 {i : Nat} (hi : i ≤ k) (hn : k < i + 8)
      (hsame : UInt64.ofNat (leNat b i 8) = UInt64.ofNat (leNat b' i 8)) : byteAt b k = byteAt b' k := by
    have := congrArg UInt64.toNat hsame
    rw [UInt64.toNat_ofNat_of_lt' (leNat_lt _ _ 8), UInt64.toNat_ofNat_of_lt' (leNat_lt _ _ 8)] at this
    exact hfield this hi hn
  have hfields := h.trans h'.symm
  have hle := (exists_decode_iff b).1 ⟨sb, h⟩
  have hle' := (exists_decode_iff b').1 ⟨sb, h'⟩
  rw [decode, decode, if_neg (Nat.not_lt.2 hle), if_neg (Nat.not_lt.2 hle'), Except.ok.injEq,
    Superblock.mk.injEq] at hfields
  obtain ⟨hmagic, hsize, hbitmap, hkeys, hdata, hcount, hflags, hvolume⟩ := hfields
  -- The fields lie end to end from byte 0 to byte 48, and `k` is a byte of one of them.
  rw [encodedSize] at hk
  by_cases h2 : k < 2
  · exact h16 (Nat.zero_le k) h2 hmagic
  by_cases h4 : k < 4
  · exact h16 (Nat.not_lt.1 h2) h4 hsize
  by_cases h12 : k < 12
  · exact h64 (Nat.not_lt.1 h4) h12 hbitmap
  by_cases h20 : k < 20
  · exact h64 (Nat.not_lt.1 h12) h20 hkeys
  by_cases h28 : k < 28
  · exact h64 (Nat.not_lt.1 h20) h28 hdata
  by_cases h32' : k < 32
  · exact h32 (Nat.not_lt.1 h28) h32' hcount
  by_cases h40 : k < 40
  · exact h64 (Nat.not_lt.1 h32') h40 hflags
  · exact h64 (Nat.not_lt.1 h40) hk hvolume

theorem byteForm : ByteForm encodedSize encode fun b sb => decode b = .ok sb :=
  .of_determines size_encode decode_of_byteAt (fun h h' _ hk => byteAt_eq_of_decode h h' hk)
    exists_decode_iff

end Superblock

/-- **The records on a device and their bytes determine each other.** A superblock is read back from its 48
bytes and an entry of either table from its 32, whatever follows them; from any byte string that is long
enough something is read, and its byte form is the start of that byte string; and no superblock is read from
fewer than 48 bytes. -/
theorem byteForms_determine :
    ByteForm 48 Superblock.encode (fun b sb => Superblock.decode b = .ok sb) ∧
      ByteForm 32 KeyEntry.encode (fun b e => 32 ≤ b.size ∧ KeyEntry.decode b = e) ∧
      ByteForm 32 DedupEntry.encode (fun b e => 32 ≤ b.size ∧ DedupEntry.decode b = e) :=
  ⟨Superblock.byteForm, Record.byteForm KeyEntry.ofRecord_toRecord KeyEntry.toRecord_ofRecord,
    Record.byteForm DedupEntry.ofRecord_toRecord DedupEntry.toRecord_ofRecord⟩

end BlockStore
