import BlockStore.Proofs.Cursors
import BlockStore.Proofs.Faultless
import BlockStore.Proofs.FreeList
import Mathlib.Algebra.GroupWithZero.Nat
import Mathlib.Data.List.Dedup

/-!
# Deduplication

On a deduplicating volume without faults, keys with equal values share one block, and every value is
stored once. A key that was created and has not been given a value has none of the two: it reads as
zeros, and there is no block for it.

Both directions rest on the content key. Blocks with the same contents have the same content key, and
no content key is in two entries of the table; so entries, shared blocks and values are in bijection.
That the values are those that were asked to be stored takes the assumption that content keys do not
collide, and nothing else here does.

## Main definitions

* `View.Given`: the slots that have been given a value.
* `View.heldValue`: the value that a dedup entry stands for.
* `Volume.Deduplicates`: what deduplication comes to, in terms of queries.
* `KeyMap.told`, `Call.told`: the map that the replies of a volume tell of.

## Main results

* `View.Sound.pointer_eq_iff`, `count_givenValues`, `length_dedup_givenValues`: blocks, counts and
  entries against values.
* `Volume.deduplicates_of_format`: the values are those that were stored.
-/

namespace BlockStore

namespace View

/-- The slot has a key, and the key has been given a value. -/
def Given (w : View) (s : Nat) : Prop := w.Active s ∧ w.pointer s ≠ 0

instance (w : View) (s : Nat) : Decidable (w.Given s) := inferInstanceAs (Decidable (_ ∧ _))

/-- The value that a dedup entry stands for. -/
def heldValue (w : View) (sb : Superblock) (i : Nat) : Block :=
  match sb.slotOfBlock (w.shared i).block with
  | some t => w.data t
  | none => .zero

/-- The number of dedup entries that hold a block. -/
def heldCount (w : View) (sb : Superblock) : Nat :=
  (List.range sb.dedupCapacity).countP fun i => decide (w.Held i)

/-- The references that the dedup entries count. -/
def heldRefs (w : View) (sb : Superblock) : Nat :=
  (((List.range sb.dedupCapacity).filter fun i => decide (w.Held i)).map fun i =>
    (w.shared i).refCount.toNat).sum

/-- The values of the keys that have been given one, in slot order. -/
def givenValues (w : View) (sb : Superblock) : List Block :=
  ((List.range sb.slots).filter fun s => decide (w.Given s)).map (w.value sb)

variable {sb : Superblock} {length : Nat} {P : Block → Prop} {σ : Nat → Nat} {w : View} {s t i j : Nat}
  {b : Block}

/-- The value is a matter of the pointer. -/
theorem value_eq_of_pointer_eq (hd : sb.isDedup) (h : w.pointer s = w.pointer t) :
    w.value sb s = w.value sb t := by
  rw [value, value, if_pos hd, if_pos hd, h]

theorem mem_givenValues (hlt : ∀ s, w.Active s → s < sb.slots) :
    b ∈ w.givenValues sb ↔ ∃ s, w.Given s ∧ w.value sb s = b := by
  rw [givenValues, List.mem_map]
  refine exists_congr fun s => and_congr_left fun _ => ?_
  rw [List.mem_filter, List.mem_range, decide_eq_true_eq]
  exact and_iff_right_of_imp fun hs => hlt s hs.1

namespace Sound

/-- The value of a slot is the value of the dedup entry that its pointer leads to. -/
theorem exists_held (hfits : sb.Fits length) (hd : sb.isDedup) (h : w.Sound sb P σ) (hs : w.Given s) :
    ∃ i, w.Held i ∧ (w.shared i).block = w.pointer s ∧ w.heldValue sb i = w.value sb s := by
  obtain ⟨i, t, hi, ht, hblock, htarget, -⟩ := h.exists_target hd hs.1 hs.2
  refine ⟨i, hi, hblock, ?_⟩
  rw [value_of_pointer_eq hd hfits ht htarget, heldValue, hblock, htarget,
    Superblock.slotOfBlock_dataBlock ht]

/-- The content key of an entry is that of its value. -/
theorem contentHash_heldValue (h : w.Sound sb P σ) (hi : w.Held i) :
    contentHash (w.heldValue sb i).bytes = (w.shared i).key := by
  obtain ⟨t, ht, hblock, -, -, hhash, -⟩ := h.home hi
  rw [heldValue, hblock, Superblock.slotOfBlock_dataBlock ht]
  exact hhash

/-- Equal values have equal content keys, and no content key is in two entries. -/
theorem heldValue_inj (h : w.Sound sb P σ) (hi : w.Held i) (hj : w.Held j)
    (hij : w.heldValue sb i = w.heldValue sb j) : i = j := by
  refine h.content_inj hi hj ?_
  rw [← h.contentHash_heldValue hi, ← h.contentHash_heldValue hj, hij]

/-- Two keys point at one block just if they have one value. -/
theorem pointer_eq_iff (hfits : sb.Fits length) (hd : sb.isDedup) (h : w.Sound sb P σ) (hs : w.Given s)
    (ht : w.Given t) : w.pointer s = w.pointer t ↔ w.value sb s = w.value sb t := by
  refine ⟨value_eq_of_pointer_eq hd, fun hvalue => ?_⟩
  obtain ⟨i, hi, hblock, hheld⟩ := h.exists_held hfits hd hs
  obtain ⟨j, hj, hblock', hheld'⟩ := h.exists_held hfits hd ht
  obtain rfl := h.heldValue_inj hi hj (hheld.trans (hvalue.trans hheld'.symm))
  exact hblock.symm.trans hblock'

/-- A value is held as often as its block is pointed at. -/
theorem count_givenValues (hfits : sb.Fits length) (hd : sb.isDedup) (h : w.Sound sb P σ)
    (hs : w.Given s) : (w.givenValues sb).count (w.value sb s) = w.refs sb (w.pointer s) := by
  rw [givenValues, List.count, List.countP_map, List.countP_filter, refs]
  refine List.countP_congr fun t _ => ?_
  simp only [Function.comp_apply, Bool.and_eq_true, beq_iff_eq, decide_eq_true_eq]
  constructor
  · rintro ⟨hvalue, ht⟩
    exact ⟨ht.1, (h.pointer_eq_iff hfits hd ht hs).2 hvalue⟩
  · rintro ⟨ht, hpointer⟩
    have hgiven : w.Given t := ⟨ht, hpointer ▸ hs.2⟩
    exact ⟨(h.pointer_eq_iff hfits hd hgiven hs).1 hpointer, hgiven⟩

/-- What an exact count counts is the value of some key. -/
theorem exists_given (hfits : sb.Fits length) (h : w.Sound sb P fun _ => 0) (hi : w.Held i) :
    ∃ s, w.Given s ∧ w.pointer s = (w.shared i).block := by
  obtain ⟨hpos, hcount⟩ := h.counted hi
  have hrefs : 0 < w.refs sb (w.shared i).block := by omega
  obtain ⟨s, -, hs⟩ := List.countP_pos_iff.1 hrefs
  obtain ⟨hactive, hpointer⟩ := of_decide_eq_true hs
  exact ⟨s, ⟨hactive, hpointer ▸ block_ne_zero hfits h hi⟩, hpointer⟩

/-- There are as many entries in use as different values. -/
theorem length_dedup_givenValues (hfits : sb.Fits length) (hd : sb.isDedup)
    (h : w.Sound sb P fun _ => 0) : (w.givenValues sb).dedup.length =
      (List.range sb.dedupCapacity).countP fun i => decide (w.Held i) := by
  have hnodup : (((List.range sb.dedupCapacity).filter fun i => decide (w.Held i)).map
      (w.heldValue sb)).Nodup := by
    refine List.Nodup.map_on (fun i hi j hj hij => ?_) (List.nodup_range.filter _)
    exact h.heldValue_inj (of_decide_eq_true (List.mem_filter.1 hi).2)
      (of_decide_eq_true (List.mem_filter.1 hj).2) hij
  have hmem (b : Block) : b ∈ (w.givenValues sb).dedup ↔
      b ∈ ((List.range sb.dedupCapacity).filter fun i => decide (w.Held i)).map (w.heldValue sb) := by
    rw [List.mem_dedup, mem_givenValues fun _ => h.active_lt, List.mem_map]
    constructor
    · rintro ⟨s, hs, rfl⟩
      obtain ⟨i, hi, -, hvalue⟩ := h.exists_held hfits hd hs
      exact ⟨i, List.mem_filter.2 ⟨List.mem_range.2 (h.held_lt hi), decide_eq_true hi⟩, hvalue⟩
    · rintro ⟨i, hi, rfl⟩
      have hi : w.Held i := of_decide_eq_true (List.mem_filter.1 hi).2
      obtain ⟨s, hs, hpointer⟩ := h.exists_given hfits hi
      obtain ⟨j, hj, hblock, hvalue⟩ := h.exists_held hfits hd hs
      obtain rfl := h.block_inj hi hj (hpointer.symm.trans hblock.symm)
      exact ⟨s, hs, hvalue.symm⟩
  have hperm := (List.perm_ext_iff_of_nodup (List.nodup_dedup _) hnodup).2 hmem
  rw [hperm.length_eq, List.length_map, List.countP_eq_length_filter]

end Sound

end View

namespace Volume

/-- The value of a key that has been given one. -/
def givenValue (v : Volume) (key : Key) : Option Block :=
  match v.stat key, v.get key with
  | .ok info, .ok b => if info.dataBlock.isSome then some b else none
  | _, _ => none

/-- The values of those keys that have been given one, as often as there are such keys. -/
def givenValues (v : Volume) (keys : List Key) : List Block := keys.filterMap v.givenValue

/-- The volume lists these keys, and no value is stored twice. -/
structure Deduplicates (v : Volume) (keys : List Key) : Prop where
  list : v.list = .ok keys
  nodup : keys.Nodup
  /-- A key that is listed can be asked for. -/
  stat : ∀ key ∈ keys, ∃ info, v.stat key = .ok info ∧ info.key = key
  absent : ∀ key ∉ keys, v.stat key = .error (.notFound (.key key))
  /-- Two keys that have been given values have the same block just if they have the same value. -/
  block_iff : ∀ {key key' info info' b b'}, v.stat key = .ok info → v.stat key' = .ok info' →
    info.dataBlock ≠ none → info'.dataBlock ≠ none → v.get key = .ok b → v.get key' = .ok b' →
    (info.dataBlock = info'.dataBlock ↔ b = b')
  /-- The references of a key are the keys that have been given its value. -/
  counted : ∀ {key info b}, v.stat key = .ok info → info.dataBlock ≠ none → v.get key = .ok b →
    info.sharedRefs = some ((v.givenValues keys).count b)
  /-- There are as many active entries in the dedup table as different values. -/
  held : ((List.range v.superblock.dedupCapacity).countP fun i => decide (v.view.Held i)) =
    (v.givenValues keys).dedup.length
  /-- That is the number which is reported. -/
  activeEntries : ∃ stats dedup, v.statfs = .ok stats ∧ stats.dedup = some dedup ∧
    dedup.activeEntries = (v.givenValues keys).dedup.length

variable {sb : Superblock} {r : Prop} {v : Volume} {w : View} {free : List Nat} {P : Block → Prop}
  {s : Nat}

/-- The active entries of a list are counted, and the references that they count are added up. -/
theorem countRefs_map_ok (w : View) (l : List Nat) :
    DedupTable.countRefs ((l.map fun i => (i, w.shared i)).map .ok) =
      .ok (l.countP fun i => decide (w.Held i),
        ((l.filter fun i => decide (w.Held i)).map fun i => (w.shared i).refCount.toNat).sum) := by
  have hheld : (fun i => decide (w.Held i)) = fun i => (w.shared i).isActive :=
    funext fun _ => Bool.decide_eq_true
  rw [hheld, DedupTable.countRefs_map_ok, List.countP_eq_length_filter]

section Queries

variable (h : v.Shows sb r w free) (hr : r)

include h hr

/-! ### What is asked -/

theorem Shows.lookup_of_active {σ : Nat → Nat} (hw : w.Sound sb P σ) (hs : w.Active s) :
    v.lookup (w.keys s).key = .ok s := by
  have hslot := hw.slotOf_eq_some_iff.2 ⟨hs, rfl⟩
  rcases h.lookup_cases (w.keys s).key with ⟨t, hok, ht⟩ | ⟨-, hnone⟩ | ⟨-, hr'⟩
  · rw [hok, Option.some.inj (ht.symm.trans hslot)]
  · rw [hslot] at hnone
    cases hnone
  · exact absurd hr hr'

theorem Shows.sharedRefs_eq (hd : sb.isDedup) (hw : w.Sound sb P fun _ => 0) (hs : w.Given s) :
    v.sharedRefs (w.pointer s) = .ok (some (w.refs sb (w.pointer s))) := by
  have htable : v.dedupTable = some ⟨sb.dedupStart, sb.dedupBlocks⟩ := by
    rw [h.dedupTable_eq, if_pos hd]
  obtain ⟨j, hj, hblock⟩ := hw.backed hd hs.1 hs.2
  rcases h.locate_cases (.block (w.pointer s)) with
    ⟨i, -, haccepts, ff, hrun⟩ | ⟨hnone, -⟩ | ⟨-, hr'⟩
  · obtain ⟨hi, hsame⟩ := accepts_block.1 haccepts
    have hcount := (hw.counted hi).2
    rw [hsame, Nat.add_zero] at hcount
    simp only [Volume.sharedRefs, htable, hrun, bind, Except.bind, pure, Except.pure, Option.map_some,
      hcount]
  · exact absurd (accepts_block.2 ⟨hj, hblock⟩) (hnone j (hw.held_lt hj))
  · exact absurd hr hr'

/-- What is known of a key: the block that its pointer leads to, and how many keys lead there. -/
theorem Shows.stat_eq (hd : sb.isDedup) (hw : w.Sound sb P fun _ => 0) (hs : w.Active s) :
    v.stat (w.keys s).key = .ok {
      key := (w.keys s).key
      slot := s
      timestamp := (w.keys s).timestamp
      dataBlock := if w.pointer s = 0 then none else some (w.pointer s)
      sharedRefs := if w.pointer s = 0 then none else some (w.refs sb (w.pointer s)) } := by
  have hentry : v.keyTable.entry v.device s = .ok (w.keys s) := by
    rw [h.keyTable_eq]
    exact (h.entry_eq (hw.active_lt hs)).resolve_right fun hfault => hfault.2 hr
  simp only [stat, h.lookup_of_active hr hw hs, hentry, h.valueBlock_eq hr hd hw hs, bind, Except.bind]
  by_cases hp : w.pointer s = 0
  · simp only [hp, if_true]
    rfl
  · simp only [hp, if_false, h.sharedRefs_eq hr hd hw ⟨hs, hp⟩]
    rfl

theorem Shows.stat_of_absent {key : Key} (hnone : w.contents sb key = none) :
    v.stat key = .error (.notFound (.key key)) := by
  rcases h.lookup_cases key with ⟨t, -, ht⟩ | ⟨hlookup, -⟩ | ⟨-, hr'⟩
  · rw [View.contents_eq_none_iff, ht] at hnone
    cases hnone
  · simp only [stat, hlookup, bind, Except.bind]
  · exact absurd hr hr'

theorem Shows.get_of_active {σ : Nat → Nat} (hw : w.Sound sb P σ) (hs : w.Active s) :
    v.get (w.keys s).key = .ok (w.value sb s) := by
  rw [h.get_eq hr hw, hw.contents_of_active hs]

/-- A key for which there is an answer is in a slot. -/
theorem Shows.active_of_stat {σ : Nat → Nat} (hw : w.Sound sb P σ) {key : Key} {info : EntryInfo}
    (hstat : v.stat key = .ok info) : ∃ s, w.Active s ∧ (w.keys s).key = key := by
  cases hcontents : w.contents sb key with
  | none =>
    rw [h.stat_of_absent hr hcontents] at hstat
    cases hstat
  | some b =>
    obtain ⟨s, hs, hkey, -⟩ := hw.contents_eq_some_iff.1 hcontents
    exact ⟨s, hs, hkey⟩

/-- What is known of a key that has been given a value. -/
theorem Shows.given_of_stat (hd : sb.isDedup) (hw : w.Sound sb P fun _ => 0) {key : Key}
    {info : EntryInfo} {b : Block} (hstat : v.stat key = .ok info) (hgiven : info.dataBlock ≠ none)
    (hget : v.get key = .ok b) :
    ∃ s, w.Given s ∧ info.dataBlock = some (w.pointer s) ∧
      info.sharedRefs = some (w.refs sb (w.pointer s)) ∧ b = w.value sb s := by
  obtain ⟨s, hs, rfl⟩ := h.active_of_stat hr hw hstat
  rw [h.stat_eq hr hd hw hs] at hstat
  rw [h.get_of_active hr hw hs] at hget
  cases hstat
  cases hget
  by_cases hp : w.pointer s = 0
  · simp [hp] at hgiven
  · exact ⟨s, ⟨hs, hp⟩, if_neg hp, if_neg hp, rfl⟩

theorem Shows.givenValue_eq (hd : sb.isDedup) (hw : w.Sound sb P fun _ => 0) (hs : w.Active s) :
    v.givenValue (w.keys s).key = if w.pointer s = 0 then none else some (w.value sb s) := by
  rw [givenValue, h.stat_eq hr hd hw hs, h.get_of_active hr hw hs]
  by_cases hp : w.pointer s = 0
  · simp [hp]
  · simp [hp]

/-- The values of the listed keys are the values of the slots. -/
theorem Shows.givenValues_eq (hd : sb.isDedup) (hw : w.Sound sb P fun _ => 0) :
    v.givenValues (w.keyList sb) = w.givenValues sb := by
  rw [givenValues, View.keyList, View.givenValues, List.filterMap_map]
  generalize List.range sb.slots = slots
  induction slots with
  | nil => rfl
  | cons s slots ih =>
    by_cases hs : w.Active s
    · by_cases hp : w.pointer s = 0
      · simpa [hs, View.Given, hp, h.givenValue_eq hr hd hw hs] using ih
      · simpa [hs, View.Given, hp, h.givenValue_eq hr hd hw hs] using ih
    · simpa [hs, View.Given] using ih

/-- The usage of a volume, in terms of its view. -/
theorem Shows.statfs_eq : v.statfs = .ok {
      blockSize := blockSize
      blockCount := sb.slots
      freeBlocks := free.length
      usedBlocks := UInt64.ofNat sb.slots - UInt64.ofNat free.length
      keys := (w.keyList sb).length
      size := sb.volumeSize.toNat
      dedup :=
        if sb.isDedup then
          some ⟨sb.dedupCapacity, w.heldCount sb, w.heldRefs sb, (w.heldRefs sb - w.heldCount sb) * blockSize⟩
        else none } := by
  have hkeys : collect v.entries = .ok (((List.range sb.slots).filter fun s => decide (w.Active s)).map
      fun s => (s, (w.keys s).key)) := by
    rw [h.entries_eq hr, collect_map_ok]
  have hlength : (((List.range sb.slots).filter fun s => decide (w.Active s)).map
      fun s => (s, (w.keys s).key)).length = (w.keyList sb).length := by
    rw [View.keyList, List.length_map, List.length_map]
  by_cases hd : sb.isDedup
  · have hstats := DedupTable.stats_eq_countRefs ⟨sb.dedupStart, sb.dedupBlocks⟩ v.device
    rw [h.reads_shared.eq_map_ok hr, Superblock.sharedEntries, countRefs_map_ok] at hstats
    simp only [Volume.statfs, hkeys, hlength, h.dedupTable_eq, hd, if_true, hstats, bind, Except.bind, pure,
      Except.pure, h.superblock, h.freeCount_eq]
    rfl
  · simp only [Volume.statfs, hkeys, hlength, h.dedupTable_eq, hd, bind, Except.bind, pure, Except.pure,
      h.superblock, h.freeCount_eq]
    rfl

/-- A sound volume with exact counts deduplicates. -/
theorem Shows.deduplicates (hd : sb.isDedup) (hw : w.Sound sb P fun _ => 0) :
    v.Deduplicates (w.keyList sb) where
  list := h.list_eq hr
  nodup := hw.nodup_keyList
  stat key hkey := by
    obtain ⟨b, hb⟩ := Option.ne_none_iff_exists'.1 (hw.mem_keyList.1 hkey)
    obtain ⟨s, hs, rfl, -⟩ := hw.contents_eq_some_iff.1 hb
    exact ⟨_, h.stat_eq hr hd hw hs, rfl⟩
  absent key hkey := h.stat_of_absent hr (Classical.not_not.1 (mt hw.mem_keyList.2 hkey))
  block_iff hstat hstat' hgiven hgiven' hget hget' := by
    obtain ⟨s, hs, hblock, -, rfl⟩ := h.given_of_stat hr hd hw hstat hgiven hget
    obtain ⟨t, ht, hblock', -, rfl⟩ := h.given_of_stat hr hd hw hstat' hgiven' hget'
    rw [hblock, hblock', Option.some_inj]
    exact hw.pointer_eq_iff h.fits hd hs ht
  counted hstat hgiven hget := by
    obtain ⟨s, hs, -, hrefs, rfl⟩ := h.given_of_stat hr hd hw hstat hgiven hget
    rw [hrefs, h.givenValues_eq hr hd hw, hw.count_givenValues h.fits hd hs]
  held := by
    rw [h.superblock, h.view_eq, h.givenValues_eq hr hd hw, hw.length_dedup_givenValues h.fits hd]
  activeEntries := by
    refine ⟨_, _, h.statfs_eq hr, if_pos hd, ?_⟩
    rw [h.givenValues_eq hr hd hw, hw.length_dedup_givenValues h.fits hd]
    rfl

end Queries

end Volume

/-! ### The values that were stored -/

namespace KeyMap

/-- The map after a call, as far as the reply tells. -/
def told (M : KeyMap) : Call → Except StoreError Reply → KeyMap
  | .create key _, .ok _ => M.insert key .zero
  | .put key data _ _, .ok _ => M.insert key (.ofBytes data)
  | .remove key, .ok _ => M.erase key
  | .rename old new, .ok _ => M.move old new
  | _, _ => M

/-- The map that answers a call is told by the reply. -/
theorem Answers.eq_told {dedup : Bool} {M M' : KeyMap} {free : Nat} {c : Call}
    {reply : Except StoreError Reply} (h : M.Answers dedup free c reply M') : M' = M.told c reply := by
  cases c with
  | create key now =>
    rw [Answers] at h
    split at h
    · obtain ⟨rfl, rfl⟩ := h
      rfl
    split at h <;>
      · obtain ⟨rfl, rfl⟩ := h
        rfl
  | put key data created stored =>
    rw [Answers] at h
    split at h
    · obtain ⟨rfl, rfl⟩ := h
      rfl
    split at h
    · obtain ⟨rfl, rfl⟩ := h
      rfl
    · rcases h with ⟨rfl, rfl⟩ | ⟨-, -, ⟨b, rfl⟩, rfl⟩ <;> rfl
  | remove key =>
    rw [Answers] at h
    split at h <;>
      · obtain ⟨rfl, rfl⟩ := h
        rfl
  | rename old new =>
    rw [Answers] at h
    split at h
    · obtain ⟨rfl, rfl⟩ := h
      rfl
    split at h
    · rename_i hsame
      obtain ⟨rfl, rfl⟩ := h
      rw [told, hsame, move_self]
    split at h <;>
      · obtain ⟨rfl, rfl⟩ := h
        rfl
  | get key => exact h.2
  | contains key => exact h.2
  | list => exact h.2

end KeyMap

/-- The map after a sequence of calls, as far as the replies of a volume tell. -/
def Call.told : List Call → Volume → KeyMap → KeyMap
  | [], _, M => M
  | c :: cs, v, M => told cs (c.after v) (M.told c (c.reply v))

namespace Volume

variable {sb : Superblock} {P : Block → Prop} {v : Volume} {M : KeyMap}

/-- After any calls a volume stores what its replies have told. -/
theorem Represents.told (h : Represents sb P v M) (hP : sb.isDedup → Distinct P)
    (hcap : sb.isDedup → sb.slots ≤ sb.dedupCapacity) {calls : List Call}
    (hblocks : ∀ b ∈ Call.blocks calls, P b) :
    Represents sb P (Call.afterAll calls v) (Call.told calls v M) := by
  induction calls generalizing v M with
  | nil => exact h
  | cons c calls ih =>
    obtain ⟨M', hanswer, hafter⟩ := h.step hP hcap hblocks
    obtain rfl := hanswer.eq_told
    exact ih hafter fun b hb => hblocks b (blocks_subset c calls hb)

/-- **Deduplication is exact.** After any calls on a freshly formatted deduplicating volume without
faults, when no two of the blocks to be stored have the same content key: the values of the keys are
those that were stored last, two keys that have been given values have one block just if they have one
value, the references of a key are the keys with its value, and there are as many active entries in the
dedup table as different values. -/
theorem deduplicates_of_format {l : Layout} {d d' : Device} (hd : d.Reliable) (hdedup : l.dedup)
    (h : format l d = .ok v d') (calls : List Call) (hhash : Distinct (· ∈ Call.blocks calls)) :
    (Call.afterAll calls v).Reads (Call.told calls v fun _ => none) ∧
      ∃ keys, (Call.afterAll calls v).Deduplicates keys := by
  have hsb : l.superblock.isDedup := l.isDedup_superblock.trans hdedup
  have hall := (represents_of_format hd h (· ∈ Call.blocks calls)).told (fun _ => hhash)
    (fun _ => l.slots_le_dedupCapacity hdedup) fun b hb => hb
  obtain ⟨w, free, hu, hw, hmap⟩ := hall
  rw [← hmap]
  exact ⟨hu.reads trivial hw, _, hu.deduplicates trivial hsb hw⟩

/-- On a deduplicating volume with four slots a value is stored under one key and again under another. -/
theorem deduplicates_four_slots :
    ∃ v d' calls, format ⟨4, true, by decide, by decide⟩
        (.ofImage (.blank (Layout.totalSize 4 true))) = .ok v d' ∧
      calls = [.put .zero (zeros 5) ⟨0⟩ ⟨0⟩,
        .put ⟨bytesOf (List.replicate 20 1), rfl⟩ (zeros 5) ⟨0⟩ ⟨0⟩] ∧
      (Call.afterAll calls v).Reads (Call.told calls v fun _ => none) ∧
        ∃ keys, (Call.afterAll calls v).Deduplicates keys := by
  have hd := Device.reliable_ofImage (.blank (Layout.totalSize 4 true))
  obtain ⟨v, hv, -⟩ := exists_format_blank ⟨4, true, by decide, by decide⟩
  refine ⟨v, _, _, hv, rfl, deduplicates_of_format hd rfl hv _ fun a b ha hb _ => ?_⟩
  simp only [Call.blocks, size_zeros, show 5 ≤ blockSize by decide, if_true, List.mem_cons,
    List.not_mem_nil, or_false, or_self] at ha hb
  rw [ha, hb]

end Volume

end BlockStore
