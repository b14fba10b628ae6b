import BlockStore.Proofs.Deduplication
import Mathlib.Algebra.Order.BigOperators.Group.List
import Mathlib.Algebra.BigOperators.Group.List.Lemmas

/-!
# The usage of a volume

The numbers that are reported of a volume come from three places: the free list, a scan of the key table
and a scan of the dedup table. As long as no transfer fails they describe one set of slots. Each slot in
use is that of one key or that of one shared block, and each reference that the dedup table counts is the
pointer of one key that has been given a value.

## Main definitions

* `View.heldBlocks`: the blocks that the dedup entries hold.
* `Volume.hasValue`: a key has been given a value.
* `Volume.AccountsFor`: the numbers agree with the list of keys and with each other.

## Main results

* `View.Exact.countP_used`: a slot in use counts once, for a key or for a dedup entry.
* `View.Sound.heldRefs_eq`: a reference counts once, for a key with a value.
* `Volume.statfs_accounts`: the usage of a volume without faults.
-/

namespace BlockStore

namespace View

variable {sb : Superblock} {length : Nat} {P : Block → Prop} {σ : Nat → Nat} {w : View} {b : Nat}

/-- The blocks that the dedup entries hold. -/
def heldBlocks (w : View) (sb : Superblock) : List Nat :=
  ((List.range sb.dedupCapacity).filter fun i => decide (w.Held i)).map fun i => (w.shared i).block

theorem length_heldBlocks (w : View) (sb : Superblock) : (w.heldBlocks sb).length = w.heldCount sb := by
  rw [heldBlocks, List.length_map, heldCount, List.countP_eq_length_filter]

theorem length_keyList (w : View) (sb : Superblock) :
    (w.keyList sb).length = (List.range sb.slots).countP fun s => decide (w.Active s) := by
  rw [keyList, List.length_map, List.countP_eq_length_filter]

namespace Sound

theorem mem_heldBlocks (h : w.Sound sb P σ) :
    b ∈ w.heldBlocks sb ↔ ∃ i, w.Held i ∧ (w.shared i).block = b := by
  rw [heldBlocks, List.mem_map]
  refine exists_congr fun i => and_congr_left fun _ => ?_
  rw [List.mem_filter, List.mem_range, decide_eq_true_eq]
  exact and_iff_right_of_imp h.held_lt

theorem nodup_heldBlocks (h : w.Sound sb P σ) : (w.heldBlocks sb).Nodup := by
  refine List.Nodup.map_on ?_ (List.nodup_range.filter _)
  intro i hi j hj hij
  exact h.block_inj (of_decide_eq_true (List.mem_filter.1 hi).2)
    (of_decide_eq_true (List.mem_filter.1 hj).2) hij

/-- Every dedup entry counts at least one reference. -/
theorem heldCount_le_heldRefs (h : w.Sound sb P σ) : w.heldCount sb ≤ w.heldRefs sb := by
  rw [heldRefs, heldCount, List.countP_eq_length_filter]
  refine Nat.le_trans (Nat.le_of_eq (List.length_map _).symm) (List.length_le_sum_of_one_le _ ?_)
  intro n hn
  obtain ⟨i, hi, rfl⟩ := List.mem_map.1 hn
  exact (h.counted (of_decide_eq_true (List.mem_filter.1 hi).2)).1

/-- A reference counts once, for a key that has been given a value. -/
theorem heldRefs_eq (hfits : sb.Fits length) (hd : sb.isDedup) (h : w.Sound sb P fun _ => 0) :
    w.heldRefs sb = (List.range sb.slots).countP fun s => decide (w.Given s) := by
  obtain ⟨pointers, hpointers⟩ : ∃ pointers,
      pointers = ((List.range sb.slots).filter fun s => decide (w.Active s)).map w.pointer := ⟨_, rfl⟩
  have hcount (b : Nat) : w.refs sb b = pointers.count b := by
    rw [hpointers, List.count, List.countP_map, List.countP_filter, refs]
    refine List.countP_congr ?_
    intro s _
    simp [and_comm]
  have hmem (b : Nat) : b ∈ w.heldBlocks sb ↔ b ∈ pointers.dedup.filter fun p => decide (p ≠ 0) := by
    rw [h.mem_heldBlocks, List.mem_filter, List.mem_dedup, hpointers, List.mem_map, decide_eq_true_eq]
    constructor
    · rintro ⟨i, hi, rfl⟩
      obtain ⟨s, hs, hpointer⟩ := h.exists_given hfits hi
      refine ⟨⟨s, ?_, hpointer⟩, block_ne_zero hfits h hi⟩
      exact List.mem_filter.2 ⟨List.mem_range.2 (h.active_lt hs.1), decide_eq_true hs.1⟩
    · rintro ⟨⟨s, hs, rfl⟩, hne⟩
      exact h.backed hd (of_decide_eq_true (List.mem_filter.1 hs).2) hne
  have hperm := (List.perm_ext_iff_of_nodup h.nodup_heldBlocks ((List.nodup_dedup _).filter _)).2 hmem
  calc w.heldRefs sb
      = ((w.heldBlocks sb).map fun b => pointers.count b).sum := by
        rw [heldRefs, heldBlocks, List.map_map]
        refine congrArg List.sum (List.map_congr_left ?_)
        intro i hi
        rw [Function.comp_apply, ← hcount]
        exact (h.counted (of_decide_eq_true (List.mem_filter.1 hi).2)).2.symm
    _ = ((pointers.dedup.filter fun p => decide (p ≠ 0)).map fun b => pointers.count b).sum :=
        (hperm.map _).sum_eq
    _ = pointers.countP fun p => decide (p ≠ 0) := List.sum_map_count_dedup_filter_eq_countP _ _
    _ = (List.range sb.slots).countP fun s => decide (w.Given s) := by
        rw [hpointers, List.countP_map, List.countP_filter]
        refine List.countP_congr ?_
        intro s _
        by_cases hs : w.Active s <;> by_cases hp : w.pointer s = 0 <;> simp [Given, hs, hp]

end Sound

/-- A slot in use counts once, for a key or for a dedup entry. -/
theorem Exact.countP_used (h : w.Exact sb) :
    ((List.range sb.slots).countP fun s => w.used s) = (w.keyList sb).length + w.heldCount sb := by
  obtain ⟨active, hactive⟩ : ∃ active,
      active = ((List.range sb.slots).filter fun s => decide (w.Active s)).map sb.dataBlock := ⟨_, rfl⟩
  have hinj (l : List Nat) (hl : l.Nodup) : (l.map sb.dataBlock).Nodup :=
    hl.map fun _ _ => Superblock.dataBlock_inj
  have hnodup : (active ++ w.heldBlocks sb).Nodup := by
    rw [hactive]
    refine List.nodup_append.2 ⟨hinj _ (List.nodup_range.filter _), h.sound.nodup_heldBlocks, ?_⟩
    rintro _ ha _ hb rfl
    obtain ⟨s, hs, rfl⟩ := List.mem_map.1 ha
    obtain ⟨i, hi, hblock⟩ := h.sound.mem_heldBlocks.1 hb
    exact (h.sound.owner hi hblock).2.1 (of_decide_eq_true (List.mem_filter.1 hs).2)
  have hmem (b : Nat) : b ∈ ((List.range sb.slots).filter fun s => w.used s).map sb.dataBlock ↔
      b ∈ active ++ w.heldBlocks sb := by
    rw [List.mem_append, hactive, List.mem_map, List.mem_map, h.sound.mem_heldBlocks]
    constructor
    · rintro ⟨s, hs, rfl⟩
      obtain ⟨hlt, hused⟩ := List.mem_filter.1 hs
      refine ((h.used_iff (List.mem_range.1 hlt)).1 hused).imp_left fun hs => ⟨s, ?_, rfl⟩
      exact List.mem_filter.2 ⟨hlt, decide_eq_true hs⟩
    · have hback {s : Nat} (howner : w.HasOwner sb s) :
          s ∈ (List.range sb.slots).filter fun s => w.used s :=
        List.mem_filter.2 ⟨List.mem_range.2 (h.lt_of_hasOwner howner),
          (h.used_iff (h.lt_of_hasOwner howner)).2 howner⟩
      rintro (⟨s, hs, rfl⟩ | ⟨i, hi, rfl⟩)
      · exact ⟨s, hback (.inl (of_decide_eq_true (List.mem_filter.1 hs).2)), rfl⟩
      · obtain ⟨s, -, hblock, -⟩ := h.sound.home hi
        exact ⟨s, hback (.inr ⟨i, hi, hblock⟩), hblock.symm⟩
  have hperm := (List.perm_ext_iff_of_nodup (hinj _ (List.nodup_range.filter _)) hnodup).2 hmem
  have hlength := hperm.length_eq
  rw [hactive, List.length_map, List.length_append, List.length_map, length_heldBlocks,
    ← List.countP_eq_length_filter, ← List.countP_eq_length_filter, ← length_keyList] at hlength
  exact hlength

end View

namespace Volume

variable {sb : Superblock} {r : Prop} {v : Volume} {w : View} {free : List Nat}

/-- The key has been given a value. -/
def hasValue (v : Volume) (key : Key) : Bool :=
  match v.stat key with
  | .ok info => info.dataBlock.isSome
  | .error _ => false

/-- The numbers agree with the list of keys and with each other. -/
structure AccountsFor (v : Volume) (stats : VolumeStats) (keys : List Key) : Prop where
  statfs : v.statfs = .ok stats
  list : v.list = .ok keys
  keys_eq : stats.keys = keys.length
  /-- A slot is free or in use. -/
  blocks : stats.freeBlocks + stats.usedBlocks.toNat = stats.blockCount
  /-- On a plain volume the slots in use are those of the keys. -/
  plain : stats.dedup = none → stats.usedBlocks.toNat = keys.length
  /-- On a deduplicating volume they are those of the keys and the shared blocks; a reference is that of a
  key with a value. -/
  shared : ∀ dedup, stats.dedup = some dedup →
    stats.usedBlocks.toNat = keys.length + dedup.activeEntries ∧
    (∀ key ∈ keys, ∃ info, v.stat key = .ok info) ∧ dedup.totalRefs = keys.countP v.hasValue ∧
    dedup.activeEntries ≤ dedup.totalRefs ∧
    dedup.bytesSaved = blockSize * (dedup.totalRefs - dedup.activeEntries) ∧ dedup.bytesSaved < 2 ^ 64

/-- The slots that are not free are those in use. -/
theorem Shows.length_free_add (h : v.Shows sb r w free) :
    free.length + ((List.range sb.slots).countP fun s => w.used s) = sb.slots := by
  have hperm : free.Perm ((List.range sb.slots).filter fun s => decide ¬ w.used s = true) := by
    refine (List.perm_ext_iff_of_nodup h.nodup (List.nodup_range.filter _)).2 ?_
    intro s
    rw [h.mem_free, List.mem_filter, List.mem_range, decide_eq_true_eq, Bool.not_eq_true]
  have hsum := List.length_eq_countP_add_countP (fun s => w.used s) (l := List.range sb.slots)
  rw [List.length_range] at hsum
  rw [hperm.length_eq, ← List.countP_eq_length_filter, Nat.add_comm]
  exact hsum.symm

section Queries

variable (h : v.Shows sb r w free) (hr : r)

include h hr

/-- The keys with a value are those of the slots with a value. -/
theorem Shows.countP_hasValue (hd : sb.isDedup) (hw : w.Sound sb (fun _ => True) fun _ => 0) :
    (w.keyList sb).countP v.hasValue = (List.range sb.slots).countP fun s => decide (w.Given s) := by
  rw [View.keyList, List.countP_map, List.countP_filter]
  refine List.countP_congr ?_
  intro s _
  by_cases hs : w.Active s
  · by_cases hp : w.pointer s = 0 <;> simp [hasValue, h.stat_eq hr hd hw hs, View.Given, hs, hp]
  · simp [View.Given, hs]

/-- An exact volume accounts for its keys. -/
theorem Shows.accountsFor (hw : w.Exact sb) :
    ∃ stats, v.AccountsFor stats (w.keyList sb) ∧ stats.blockCount = sb.slots ∧
      (stats.dedup.isSome ↔ sb.isDedup) := by
  have hsum := h.length_free_add
  rw [hw.countP_used] at hsum
  obtain ⟨-, hused⟩ := h.accounted.statfs _ (h.statfs_eq hr)
  dsimp only at hused
  have hslots := h.fits.slots_le
  refine ⟨_, ⟨h.statfs_eq hr, h.list_eq hr, rfl, ?_, ?_, ?_⟩, rfl, ?_⟩
  · dsimp only
    omega
  · intro hplain
    have hd : ¬ sb.isDedup := fun hd => by
      rw [if_pos hd] at hplain
      cases hplain
    have hnone : w.heldCount sb = 0 := by
      rw [View.heldCount, List.countP_eq_zero]
      intro i _ hi
      exact hw.sound.not_held (Bool.not_eq_true _ ▸ hd) (of_decide_eq_true hi)
    dsimp only
    omega
  · intro dedup hdedup
    by_cases hd : sb.isDedup
    · rw [if_pos hd] at hdedup
      cases hdedup
      have hle := hw.sound.heldCount_le_heldRefs
      have hrefs := hw.sound.heldRefs_eq h.fits hd
      have hbound := List.countP_le_length (p := fun s => decide (w.Given s)) (l := List.range sb.slots)
      rw [List.length_range, ← hrefs] at hbound
      refine ⟨by dsimp only; omega, fun key hkey => ?_, ?_, hle, Nat.mul_comm _ _, ?_⟩
      · obtain ⟨info, hstat, -⟩ := (h.deduplicates hr hd hw.sound).stat key hkey
        exact ⟨info, hstat⟩
      · rw [h.countP_hasValue hr hd hw.sound]
        exact hrefs
      · simp only [Superblock.maxBlocks, blockSize] at hslots ⊢
        omega
    · rw [if_neg hd] at hdedup
      cases hdedup
  · by_cases hd : sb.isDedup
    · simp [hd]
    · simp [hd]

end Queries

/-- **The usage of a volume accounts for every slot.** In every state that comes about without faults, the
usage of a volume can be asked for, and its numbers agree with the list of keys and with each other. -/
theorem statfs_accounts {l : Layout} (h : Faultless l v) :
    ∃ stats keys, v.AccountsFor stats keys ∧ stats.blockCount = l.slots ∧
      (stats.dedup.isSome ↔ l.dedup) := by
  obtain ⟨w, free, hv, hw⟩ := h.exact
  obtain ⟨stats, haccounts, hcount, hdedup⟩ := hv.accountsFor trivial hw
  rw [l.slots_superblock] at hcount
  rw [l.isDedup_superblock] at hdedup
  exact ⟨stats, _, haccounts, hcount, hdedup⟩

/-- On a deduplicating volume with four slots a value is stored under one key, and another key is created
without a value. -/
theorem statfs_accounts_four_slots :
    ∃ v d' u, format ⟨4, true, by decide, by decide⟩
        (.ofImage (.blank (Layout.totalSize 4 true))) = .ok v d' ∧
      u = (Operation.create ⟨bytesOf (List.replicate 20 1), rfl⟩ ⟨0⟩).after
        ((Operation.put .zero (zeros 5) ⟨0⟩ ⟨0⟩).after v) ∧
      ∃ stats keys, u.AccountsFor stats keys ∧ stats.blockCount = 4 ∧ stats.dedup.isSome := by
  have hd := Device.reliable_ofImage (.blank (Layout.totalSize 4 true))
  obtain ⟨v, hv, -⟩ := exists_format_blank ⟨4, true, by decide, by decide⟩
  have hrun := ((Faultless.format hd hv).run (.put .zero (zeros 5) ⟨0⟩ ⟨0⟩)).run
    (.create ⟨bytesOf (List.replicate 20 1), rfl⟩ ⟨0⟩)
  obtain ⟨stats, keys, haccounts, hcount, hdedup⟩ := statfs_accounts hrun
  exact ⟨v, _, _, hv, rfl, stats, keys, haccounts, hcount, hdedup.2 rfl⟩

end Volume

end BlockStore
