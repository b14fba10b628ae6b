import BlockStore.Layout
import BlockStore.Proofs.Regions
import BlockStore.Proofs.Words

/-!
# The geometry in 64-bit arithmetic

Offsets, lengths and block numbers are 64-bit words, and the fields that they are computed from come
off a device. `Superblock` computes with numbers of any size; here the same is computed in words, where
a sum or a product past 64 bits and a difference below zero have no result. The check has a result for
every superblock and every length, the same one. Once it has passed, so has everything that is computed
later without a check, and the regions lie apart.

## Main definitions

* `Superblock.validate?`, `dedupStart?`, `dedupBlocks?`, `dataBlock?`, `slotOfBlock?`: in words.
* `Superblock.InWords`: words and numbers agree.

## Main results

* `Superblock.validate?_eq`: the check never leaves 64 bits, and decides as it does in numbers.
* `Superblock.geometry_of_validate`: once it has passed, the geometry is exact and the regions apart.
-/

namespace BlockStore

open Word

namespace Superblock

variable (sb : Superblock)

/-- The number of slots as a 64-bit word. -/
def slotWord : UInt64 := sb.blockCount.toUInt64

/-- The first block of the dedup table. -/
def dedupStart? : Option UInt64 := do
  let keyBytes ← mul? sb.slotWord (.ofNat recordSize)
  let stop ← add? sb.keysOffset (← padded? keyBytes)
  return stop / (.ofNat blockSize)

/-- The number of blocks of the dedup table. -/
def dedupBlocks? : Option UInt64 :=
  if sb.isDedup then do return monus (sb.dataOffset / (.ofNat blockSize)) (← sb.dedupStart?) else some 0

/-- The device block that a slot owns. -/
def dataBlock? (slot : UInt32) : Option UInt64 := add? (sb.dataOffset / (.ofNat blockSize)) slot.toUInt64

/-- The slot that owns a device block. The slot is cut to 32 bits. -/
def slotOfBlock? (block : UInt64) : Option (Option UInt32) := do
  let first := sb.dataOffset / (.ofNat blockSize)
  if block < first then return none
  if (← add? first sb.slotWord) ≤ block then return none
  return some (← sub? block first).toUInt32

theorem toNat_slotWord : sb.slotWord.toNat = sb.slots := UInt32.toNat_toUInt64 _

theorem toNat_div_blockSize (w : UInt64) : (w / .ofNat blockSize).toNat = w.toNat / blockSize :=
  UInt64.toNat_div _ _

theorem denotes_slotBytes? {n : Nat} (hn : n ≤ blockSize) :
    Denotes (mul? sb.slotWord (.ofNat n)) (sb.slots * n) := by
  have hcount : sb.slots < 2 ^ 32 := sb.blockCount.toNat_lt
  have hn' : (UInt64.ofNat n).toNat = n := UInt64.toNat_ofNat_of_lt' (Nat.lt_of_le_of_lt hn (by decide))
  have hprod : sb.slots * n ≤ 2 ^ 32 * blockSize := Nat.mul_le_mul (Nat.le_of_lt hcount) hn
  exact denotes_mul? sb.toNat_slotWord hn' (Nat.lt_of_le_of_lt hprod (by decide))

/-- Where the key table ends before the data blocks, so does its last block, since both are whole numbers
of blocks: the padded sum is no greater than a field. -/
theorem denotes_dedupStart? (hk : sb.keysOffset.toNat % blockSize = 0)
    (hd : sb.dataOffset.toNat % blockSize = 0)
    (hroom : sb.keysOffset.toNat + sb.slots * recordSize ≤ sb.dataOffset.toNat) :
    Denotes sb.dedupStart? sb.dedupStart := by
  have hdata := sb.dataOffset.toNat_lt
  have hstop : sb.keysOffset.toNat + paddedSize (sb.slots * recordSize) ≤ sb.dataOffset.toNat := by
    simp only [paddedSize, ceilDiv, recordSize, blockSize] at *
    omega
  refine (sb.denotes_slotBytes? (by decide)).bind fun bytes hbytes => ?_
  refine (denotes_padded? hbytes (by omega)).bind fun padded hpadded => ?_
  refine (denotes_add? rfl hpadded (by omega)).bind fun stop hstop => ?_
  refine ⟨_, rfl, ?_⟩
  rw [toNat_div_blockSize, hstop, dedupStart]

theorem denotes_dedupBlocks? (h : Denotes sb.dedupStart? sb.dedupStart) :
    Denotes sb.dedupBlocks? sb.dedupBlocks := by
  rw [dedupBlocks?, dedupBlocks]
  split
  · refine h.bind fun start hstart => ⟨_, rfl, ?_⟩
    rw [toNat_monus, toNat_div_blockSize, hstart, dataStart]
  · exact denotes_some 0

/-- Goes on with a sum, and rejects the superblock where the sum leaves 64 bits. -/
def orReject (sum : Option UInt64) (fault : SuperblockFault)
    (next : UInt64 → Option (Except SuperblockFault Unit)) : Option (Except SuperblockFault Unit) :=
  match sum with
  | none => return .error fault
  | some w => next w

/-- The check of a superblock against a device of `length` bytes. No result means that a step of it
left 64 bits; the two sums that are tested for that are rejected instead. -/
def validate? (length : UInt64) : Option (Except SuperblockFault Unit) :=
  if sb.magic ≠ magicNumber then return .error (.badMagic magicNumber sb.magic) else
  if sb.size ≠ .ofNat encodedSize then return .error (.badSize sb.size.toNat encodedSize) else
  if sb.blockCount = 0 ∨ .ofNat maxBlocks < sb.blockCount then
    return .error (.blockCountOutOfRange sb.slots) else
  if sb.bitmapOffset % .ofNat blockSize ≠ 0 then
    return .error (.misaligned .bitmap sb.bitmapOffset.toNat) else
  if sb.keysOffset % .ofNat blockSize ≠ 0 then
    return .error (.misaligned .keys sb.keysOffset.toNat) else
  if sb.dataOffset % .ofNat blockSize ≠ 0 then
    return .error (.misaligned .data sb.dataOffset.toNat) else
  if ¬ (sb.keysOffset < sb.dataOffset ∧ sb.bitmapOffset < sb.keysOffset ∧
      sb.size.toUInt64 < sb.bitmapOffset) then return .error .regionsOutOfOrder else
  sub? sb.keysOffset sb.bitmapOffset >>= fun room =>
  ceilDiv? sb.slotWord 8 >>= fun needed =>
  if room < needed then return .error .bitmapTooSmall else
  mul? sb.slotWord (.ofNat recordSize) >>= fun keyBytes =>
  orReject (add? sb.keysOffset keyBytes) .keyTableOverflow fun keysEnd =>
  if sb.dataOffset < keysEnd then return .error .keyTableOverlap else
  sb.dedupBlocks? >>= fun dedupBlocks =>
  if sb.isDedup ∧ dedupBlocks = 0 then return .error .missingDedupTable else
  mul? sb.slotWord (.ofNat blockSize) >>= fun dataBytes =>
  orReject (add? sb.dataOffset dataBytes) .dataOverflow fun dataEnd =>
  if sb.volumeSize < dataEnd then
    return .error (.sizeTooSmall sb.volumeSize.toNat dataEnd.toNat) else
  if length < sb.volumeSize then
    return .error (.deviceTooShort length.toNat sb.volumeSize.toNat) else
  return .ok ()

/-- A test of words rejects where the same test of numbers does, and what follows it agrees if it does
where the test lets through. -/
private theorem agree_guard {p q : Prop} [Decidable p] [Decidable q] {e : SuperblockFault}
    {words : Option (Except SuperblockFault Unit)} {skipped : PUnit → Except SuperblockFault Unit}
    {rest : Except SuperblockFault Unit} (hpq : p ↔ q) (h : ¬ q → words = some rest) :
    (if p then some (.error e) else words) = some (if q then throw e >>= skipped else rest) := by
  by_cases hq : q
  · rw [if_pos (hpq.2 hq), if_pos hq]
    rfl
  · rw [if_neg (fun hp => hq (hpq.1 hp)), if_neg hq, h hq]

private theorem agree_aligned {offset : Offset} {value : UInt64}
    {words : Option (Except SuperblockFault Unit)} {rest : PUnit → Except SuperblockFault Unit}
    (h : value.toNat % blockSize = 0 → words = some (rest ())) :
    (if value % .ofNat blockSize ≠ 0 then some (.error (.misaligned offset value.toNat)) else words) =
      some (checkAligned offset value >>= rest) := by
  have hiff : value % .ofNat blockSize = 0 ↔ value.toNat % blockSize = 0 := by
    rw [← UInt64.toNat_inj, UInt64.toNat_mod]
    rfl
  rw [checkAligned]
  by_cases hv : value.toNat % blockSize = 0
  · rw [if_neg (not_not_intro (hiff.2 hv)), if_pos hv, h hv]
    rfl
  · rw [if_pos (fun hw => hv (hiff.1 hw)), if_neg hv]
    rfl

private theorem agree_word {o : Option UInt64} {n : Nat}
    {next : UInt64 → Option (Except SuperblockFault Unit)} {rest : Except SuperblockFault Unit}
    (ho : Denotes o n) (h : ∀ w, w.toNat = n → next w = some rest) : (o >>= next) = some rest := by
  obtain ⟨w, rfl, hw⟩ := ho
  exact h w hw

private theorem agree_sum {a b : UInt64} {n : Nat} {e : SuperblockFault}
    {next : UInt64 → Option (Except SuperblockFault Unit)}
    {skipped : PUnit → Except SuperblockFault Unit} {rest : Except SuperblockFault Unit}
    (hn : a.toNat + b.toNat = n) (h : ∀ w, w.toNat = n → next w = some rest) :
    orReject (add? a b) e next = some (if 1 <<< 64 ≤ n then throw e >>= skipped else rest) := by
  rw [Nat.one_shiftLeft, add?, hn]
  by_cases hfit : n < 2 ^ 64
  · obtain ⟨w, hw, hwn⟩ := denotes_ofNat? hfit
    rw [hw, if_neg (Nat.not_le.2 hfit)]
    exact h w hwn
  · rw [ofNat?_eq_none (Nat.not_lt.1 hfit), if_pos (Nat.not_lt.1 hfit)]
    rfl

/-- The check never leaves 64 bits, and decides as it does in numbers. -/
theorem validate?_eq (length : UInt64) : sb.validate? length = some (sb.validate length.toNat) := by
  have hword := sb.toNat_slotWord
  have hcount : sb.slots < 2 ^ 32 := sb.blockCount.toNat_lt
  rw [validate?, validate]
  refine agree_guard Iff.rfl fun hmagic => agree_guard ?_ fun hsize => agree_guard ?_ fun hslots => ?_
  · rw [Ne, ← UInt16.toNat_inj]
    rfl
  · rw [← UInt32.toNat_inj, UInt32.lt_iff_toNat_lt]
    rfl
  refine agree_aligned fun hb => agree_aligned fun hk => agree_aligned fun hd => agree_guard ?_ fun horder => ?_
  · rw [UInt64.lt_iff_toNat_lt, UInt64.lt_iff_toNat_lt, UInt64.lt_iff_toNat_lt, UInt16.toNat_toUInt64]
  rw [Decidable.not_not] at horder
  refine agree_word (denotes_sub? rfl rfl (Nat.le_of_lt horder.2.1)) fun room hroom => ?_
  refine agree_word (denotes_ceilDiv? hword rfl (by decide)) fun needed hneeded => ?_
  refine agree_guard ?_ fun hbitmap => ?_
  · rw [UInt64.lt_iff_toNat_lt, hroom, hneeded]
    rfl
  refine agree_word (sb.denotes_slotBytes? (by decide)) fun keyBytes hkeyBytes => ?_
  refine agree_sum (by rw [hkeyBytes]) fun keysEnd hkeysEnd => agree_guard ?_ fun hkeys => ?_
  · rw [UInt64.lt_iff_toNat_lt, hkeysEnd]
  refine agree_word (sb.denotes_dedupBlocks? (sb.denotes_dedupStart? hk hd (Nat.not_lt.1 hkeys)))
    fun dedup hdedup => agree_guard ?_ fun hmissing => ?_
  · rw [← UInt64.toNat_inj, hdedup, UInt64.toNat_zero]
  refine agree_word (sb.denotes_slotBytes? (Nat.le_refl _)) fun dataBytes hdataBytes => ?_
  refine agree_sum (by rw [hdataBytes]) fun dataEnd hdataEnd => ?_
  rw [← hdataEnd]
  refine agree_guard ?_ fun hvolume => ?_
  · rw [UInt64.lt_iff_toNat_lt]
  by_cases hlength : length.toNat < sb.volumeSize.toNat
  · rw [if_pos (UInt64.lt_iff_toNat_lt.2 hlength), if_pos hlength]
    rfl
  · rw [if_neg (fun h => hlength (UInt64.lt_iff_toNat_lt.1 h)), if_neg hlength]
    rfl

/-- What is computed in words is what is computed in numbers. -/
structure InWords (sb : Superblock) : Prop where
  dedupStart : Denotes sb.dedupStart? sb.dedupStart
  dedupBlocks : Denotes sb.dedupBlocks? sb.dedupBlocks
  dataBlock (slot : UInt32) : Denotes (sb.dataBlock? slot) (sb.dataBlock slot.toNat)
  slotOfBlock (block : UInt64) :
    ∃ slot, sb.slotOfBlock? block = some slot ∧ slot.map UInt32.toNat = sb.slotOfBlock block.toNat

/-- A block number and a slot number have room for each other in 64 bits, whatever the superblock. -/
theorem dataStart_add_lt {n : Nat} (hn : n < 2 ^ 32) : sb.dataStart + n < 2 ^ 64 := by
  have := sb.dataOffset.toNat_lt
  simp only [dataStart, blockSize]
  omega

theorem denotes_dataBlock? (slot : UInt32) :
    Denotes (sb.dataBlock? slot) (sb.dataBlock slot.toNat) := by
  rw [dataBlock?, dataBlock]
  exact denotes_add? (toNat_div_blockSize _) (UInt32.toNat_toUInt64 slot) (sb.dataStart_add_lt slot.toNat_lt)

theorem slotOfBlock?_eq (block : UInt64) : ∃ slot, sb.slotOfBlock? block = some slot ∧
    slot.map UInt32.toNat = sb.slotOfBlock block.toNat := by
  have hfirst : (sb.dataOffset / .ofNat blockSize).toNat = sb.dataStart := toNat_div_blockSize _
  have hcount : sb.slots < 2 ^ 32 := sb.blockCount.toNat_lt
  obtain ⟨stop, hsum, hstop⟩ := denotes_ofNat? (sb.dataStart_add_lt hcount)
  simp only [slotOfBlock?, add?, hfirst, toNat_slotWord, hsum, UInt64.lt_iff_toNat_lt,
    UInt64.le_iff_toNat_le, hstop, Option.bind_eq_bind, Option.bind_some]
  by_cases hlow : block.toNat < sb.dataStart
  · refine ⟨none, if_pos hlow, ?_⟩
    rw [slotOfBlock, if_neg (by omega), Option.map_none]
  by_cases hhigh : sb.dataStart + sb.slots ≤ block.toNat
  · refine ⟨none, by rw [if_neg hlow, if_pos hhigh]; rfl, ?_⟩
    rw [slotOfBlock, if_neg (by omega), Option.map_none]
  obtain ⟨slot, hsub, hslot⟩ := denotes_sub? (a := block) rfl hfirst (Nat.not_lt.1 hlow)
  refine ⟨some slot.toUInt32, by rw [if_neg hlow, if_neg hhigh, hsub]; rfl, ?_⟩
  -- the difference is below the number of slots, so cutting it to 32 bits loses nothing
  rw [slotOfBlock, if_pos (by omega), Option.map_some, UInt64.toNat_toUInt32, hslot,
    Nat.mod_eq_of_lt (by omega)]

/-- A superblock that passes its check is computed with in words as it is in numbers. -/
theorem Fits.inWords {sb : Superblock} {length : Nat} (h : sb.Fits length) : sb.InWords where
  dedupStart := sb.denotes_dedupStart? h.keys_aligned h.data_aligned h.keys_room
  dedupBlocks :=
    sb.denotes_dedupBlocks? (sb.denotes_dedupStart? h.keys_aligned h.data_aligned h.keys_room)
  dataBlock := sb.denotes_dataBlock?
  slotOfBlock := sb.slotOfBlock?_eq

/-- The check of a superblock has a result in 64-bit arithmetic, whatever the fields and the length of
the device; and where that result is that the superblock is accepted, the regions do not meet, lie
inside the device and hold what belongs to them, nothing that is computed from the fields afterwards
leaves 64 bits, and slots and data blocks lead to each other. -/
theorem geometry_of_validate (sb : Superblock) (length : UInt64) :
    sb.validate? length = some (sb.validate length.toNat) ∧
      (sb.validate? length = some (.ok ()) → sb.Apart length.toNat ∧ sb.InWords) := by
  refine ⟨sb.validate?_eq length, fun hok => ?_⟩
  rw [sb.validate?_eq length, Option.some.injEq, validate_eq_ok_iff] at hok
  exact ⟨hok.apart, hok.inWords⟩

/-- The volume of two slots that deduplicates, on a device that it just fits on. -/
theorem geometry_two_slots :
    let sb := (Layout.mk 2 true (by decide) (by decide)).superblock
    sb.validate? sb.volumeSize = some (.ok ()) ∧ sb.Apart sb.volumeSize.toNat ∧ sb.InWords := by
  have hok : (Layout.mk 2 true (by decide) (by decide)).superblock.validate?
      (Layout.mk 2 true (by decide) (by decide)).superblock.volumeSize = some (.ok ()) := by
    decide
  exact ⟨hok, (geometry_of_validate _ _).2 hok⟩

end Superblock

end BlockStore
