import BlockStore.Proofs.Operations
import BlockStore.Proofs.Ownership

/-!
# The operations and the owners of slots

Every write of every operation leaves a volume where no slot has two owners, if it was like that before.
Nothing else is assumed of the volume, so an operation may fail for more reasons than on a sound one: a
pointer may lead to a block without a dedup entry, and the entry of a free slot may be in the way of a
new key.

An operation that runs to its end gives back every slot that it takes and does not use, and so does one
that fails, unless the device fails it. Only a key that could not be entered costs a slot, and only
where the entry of a slot that is not in use is not free.

## Main definitions

* `View.Fresh`: the slots that are not in use have free entries.
* `View.Dropped`: what dropping a reference leaves alone.
* `View.Reaches`: a slot points at the block of a dedup entry.
* `Volume.Tended`, `Volume.Tightened`: no slot has become loose.

## Main results

* `Volume.owned_dropShared`, `owned_storeShared`: the parts of the operations.
* `Volume.owned_create`, `owned_put`, `owned_remove`, `owned_rename`: the operations.
-/

namespace BlockStore

namespace View

/-- The slots that are not in use have free entries. -/
def Fresh (sb : Superblock) (w : View) : Prop :=
  ∀ {s}, s < sb.slots → w.used s = false → (w.keys s).isFree

/-- What dropping a reference to a block leaves alone: the entries of slots and the data of slots with a
key, and every dedup entry but the one that loses its last reference. -/
structure Dropped (sb : Superblock) (w : View) (block : Nat) (w' : View) : Prop where
  keys : w'.keys = w.keys
  data : ∀ {s}, w.Active s → w'.data s = w.data s
  tightens : w.Tightens sb w'
  held : ∀ {i}, w.Held i → ((w.shared i).block = block → 2 ≤ (w.shared i).refCount.toNat) →
    w'.Held i ∧ (w'.shared i).block = (w.shared i).block

/-- The pointer of the slot leads to the block of a dedup entry. -/
def Reaches (w : View) (s : Nat) : Prop := ∃ i, w.Held i ∧ (w.shared i).block = w.pointer s

/-- A dedup entry has this content. -/
def Knows (w : View) (content : Key) : Prop := ∃ i, w.Held i ∧ (w.shared i).key = content

variable {sb : Superblock} {strict : Prop} {w w' : View} {s i : Nat} {P : Block → Prop} {σ : Nat → Nat}

namespace Owned

/-- Dropping a reference from a dedup entry. -/
theorem unref (h : w.Owned sb strict) (hi : w.Held i) :
    (w.setShared i (Volume.unrefEntry (w.shared i))).Owned sb strict := by
  by_cases hlast : (w.shared i).refCount.toNat - 1 = 0
  · rw [Volume.unrefEntry, if_pos hlast]
    exact h.freeShared i
  · rw [Volume.unrefEntry_of_ne_zero hlast]
    refine h.recount hi rfl fun _ => ?_
    change 1 ≤ (UInt16.ofNat _).toNat
    rw [Volume.refCount_unrefEntry]
    exact Nat.one_le_iff_ne_zero.2 hlast

/-- Adding a reference to a dedup entry. -/
theorem share (h : w.Owned sb strict) (hi : w.Held i)
    (hroom : (w.shared i).refCount.toNat + 1 < 1 <<< 16) :
    (w.setShared i (Volume.shareEntry (w.shared i))).Owned sb strict :=
  h.recount hi rfl fun _ => by rw [Volume.refCount_shareEntry hroom]; exact Nat.succ_pos _

end Owned

end View

namespace Volume

variable {sb : Superblock} {r strict : Prop} {v u : Volume} {w w' : View} {free : List Nat} {s : Nat}

/-- The volume shows a view with the slot entries of `w`, and, unless the device has failed, no slot
that has become loose. -/
def Tended (sb : Superblock) (r strict : Prop) (w : View) (u : Volume) : Prop :=
  ∃ w' free', u.Shows sb r w' free' ∧ w'.Owned sb strict ∧ w'.keys = w.keys ∧ (r → w.Tightens sb w')

/-- The volume shows a view in which no slot has become loose. -/
def Tightened (sb : Superblock) (r : Prop) (w : View) (u : Volume) : Prop :=
  ∃ w' free', u.Shows sb r w' free' ∧ w.Tightens sb w'

theorem Shows.tended (h : v.Shows sb r w free) (hw : w.Owned sb strict) : v.Tended sb r strict w :=
  ⟨w, free, h, hw, rfl, fun _ => View.Tightens.rfl⟩

/-- After a failure of the device it does not matter which slots are loose. -/
theorem Tended.of_not (h : u.Tended sb r strict w') (hkeys : w'.keys = w.keys) (hr : ¬ r) :
    u.Tended sb r strict w := by
  obtain ⟨x, free', hu, hx, hk, -⟩ := h
  exact ⟨x, free', hu, hx, hk.trans hkeys, fun hr' => absurd hr' hr⟩

theorem Tended.trans (h : u.Tended sb r strict w') (hkeys : w'.keys = w.keys)
    (htight : w.Tightens sb w') : u.Tended sb r strict w := by
  obtain ⟨x, free', hu, hx, hk, hr⟩ := h
  exact ⟨x, free', hu, hx, hk.trans hkeys, fun hr' => htight.trans (hr hr')⟩

/-! ### Giving back -/

theorem owned_reclaim (h : v.Shows sb r w free) (hw : w.Owned sb strict) (hs : w.Loose sb s) :
    Runs sb r (View.Owned sb strict) (reclaim s) v
      (fun _ u => u.Shows sb r (w.reclaimed s) (s :: free))
      (fun _ u => u.Tended sb r strict w ∧ ¬ r) := by
  have hzeroed := hw.setData s .zero
  refine ((runs_writeData h hs.lt hzeroed).mono (fun _ _ hq => hq)
    fun _ _ he => ⟨he.1.tended hw, he.2⟩).bind fun _ u hu => ?_
  exact (runs_release hu hs.lt hs.used (hw.reclaimed hs)).mono (fun _ _ hq => hq) fun _ _ he =>
    ⟨(he.1.tended hzeroed).of_not rfl he.2, he.2⟩

theorem owned_discardSlot (h : v.Shows sb r w free) (hw : w.Owned sb strict) (hs : w.Active s) :
    Runs sb r (View.Owned sb strict) (discardSlot s) v
      (fun _ u => u.Shows sb r ((w.setKey s .free).reclaimed s) (s :: free)) (fun _ _ => ¬ r) := by
  refine .get_bind ?_
  rw [h.keyTable_eq]
  refine ((runs_writeKey h (hw.active_lt hs) (hw.freeKey s)).mono (fun _ _ hq => hq)
    fun _ _ he => he.2).bind fun _ u hu => ?_
  exact (owned_reclaim hu (hw.freeKey s) (hw.loose_freed hs)).mono (fun _ _ hq => hq) fun _ _ he => he.2

/-- A slot whose key was deleted is not loose. -/
theorem tightens_discarded (s : Nat) : w.Tightens sb ((w.setKey s .free).reclaimed s) := fun t h => by
  obtain ⟨hts, h⟩ := View.loose_reclaimed h
  exact (View.loose_freeKey h).resolve_left hts

/-- Dropping a reference to any block: some entry holds it and counts one less, or there is none. -/
theorem owned_unref (h : v.Shows sb r w free) (hw : w.Owned sb strict) (block : Nat) :
    Runs sb r (View.Owned sb strict)
      (onDevice (DedupTable.unref ⟨sb.dedupStart, sb.dedupBlocks⟩ block)) v
      (fun left u => ∃ i, w.Held i ∧ (w.shared i).block = block ∧
        left = (w.shared i).refCount.toNat - 1 ∧
        u.Shows sb r (w.setShared i (unrefEntry (w.shared i))) free)
      (fun _ u => u.Shows sb r w free) := by
  rw [DedupTable.unref, onDevice_bind, onDevice_look]
  refine ((runs_locate h (.block block)).mono (fun _ _ hq => hq) fun _ _ he => he.1).bind ?_
  rintro l u ⟨hu, ⟨i, hi, hacc, hfound⟩ | ⟨-, hfound, -⟩⟩
  · obtain ⟨hheld, hblock⟩ := accepts_block.1 hacc
    simp only [hfound]
    rw [onDevice_bind]
    refine .bind ((runs_writeShared hu hi (hw.unref hheld)).mono (fun _ _ hq => hq)
      fun _ _ he => he.1) fun _ t ht => ?_
    exact .pure ⟨i, hheld, hblock, rfl, ht⟩
  · simp only [hfound]
    exact .throw hu

/-- The entry that loses a reference is the only one that changes, and it stays if it counted two. -/
theorem held_unref {i j : Nat} (hj : w.Held j)
    (hkept : (w.shared j).block = (w.shared i).block → 2 ≤ (w.shared j).refCount.toNat) :
    (w.setShared i (unrefEntry (w.shared i))).Held j ∧
      ((w.setShared i (unrefEntry (w.shared i))).shared j).block = (w.shared j).block := by
  rw [View.held_setShared, View.shared_setShared]
  by_cases hji : j = i
  · subst hji
    have htwo := hkept rfl
    rw [if_pos rfl, if_pos rfl, unrefEntry_of_ne_zero (by omega)]
    exact ⟨hj, rfl⟩
  · rw [if_neg hji, if_neg hji]
    exact ⟨hj, rfl⟩

theorem owned_dropShared (h : v.Shows sb r w free) (hw : w.Owned sb strict) (block : Nat) :
    Runs sb r (View.Owned sb strict) (dropShared ⟨sb.dedupStart, sb.dedupBlocks⟩ block) v
      (fun _ u => ∃ w' free', u.Shows sb r w' free' ∧ w'.Owned sb strict ∧ w.Dropped sb block w')
      (fun _ u => u.Tended sb r strict w) := by
  refine ((owned_unref h hw block).mono (fun _ _ hq => hq) fun _ _ he => he.tended hw).bind ?_
  rintro left u ⟨i, hi, rfl, rfl, hu⟩
  have hdone := hw.unref hi
  by_cases hlast : (w.shared i).refCount.toNat - 1 = 0
  · have hfreed : unrefEntry (w.shared i) = .free := if_pos hlast
    rw [if_pos hlast]
    refine .get_bind ?_
    rw [hu.superblock]
    cases hslot : sb.slotOfBlock (w.shared i).block with
    | none =>
      refine .pure ⟨_, _, hu, hdone, rfl, fun _ => rfl, fun t ht => ?_, held_unref⟩
      rw [hfreed] at ht
      refine (View.loose_freeShared ht).resolve_left fun hblock => ?_
      rw [hblock, Superblock.slotOfBlock_dataBlock ht.lt] at hslot
      cases hslot
    | some t =>
      obtain ⟨ht, hblock⟩ := Superblock.slotOfBlock_eq_some_iff.1 hslot
      have hloose := hw.loose_unshared hi ht hblock
      rw [← hfreed] at hloose
      refine (owned_reclaim hu hdone hloose).mono (fun _ x hx => ?_) fun _ x hx => hx.1.of_not rfl hx.2
      refine ⟨_, _, hx, hdone.reclaimed hloose, rfl, fun {s'} hs' => ?_, fun t' ht' => ?_, held_unref⟩
      · refine View.data_reclaimed_of_ne ?_
        rintro rfl
        exact (hw.owner hi ht hblock).2 hs'
      · obtain ⟨hne, ht'⟩ := View.loose_reclaimed ht'
        rw [hfreed] at ht'
        refine (View.loose_freeShared ht').resolve_left fun hblock' => hne ?_
        exact Superblock.dataBlock_inj (hblock'.symm.trans hblock)
  · rw [if_neg hlast]
    refine .pure ⟨_, _, hu, hdone, rfl, fun _ => rfl, ?_, held_unref⟩
    rw [unrefEntry_of_ne_zero hlast]
    exact View.loose_recount (w := w) hi hi rfl

/-! ### Storing -/

/-- Writing a pointer, and dropping the reference of the pointer that was there. The entry that the new
pointer leads to stays, unless the old pointer led there as well and was the only reference. -/
theorem owned_redirect (h : v.Shows sb r w free) (hw : w.Owned sb strict) (hs : w.Active s) {p : Nat}
    (hp : p < 2 ^ 64) :
    Runs sb r (View.Owned sb strict) (redirect ⟨sb.dedupStart, sb.dedupBlocks⟩ s p) v
      (fun _ u => ∃ w' free', u.Shows sb r w' free' ∧ w'.Owned sb strict ∧ w'.keys = w.keys ∧
        w.Tightens sb w' ∧
        ((∃ i, w.Held i ∧ (w.shared i).block = p ∧ 2 ≤ (w.shared i).refCount.toNat) → w'.Reaches s))
      (fun _ u => u.Tended sb r strict w) := by
  have hs' := hw.active_lt hs
  have hpointed := hw.setData s (pointerBlock p)
  have hself : (w.setData s (pointerBlock p)).pointer s = p := by
    rw [View.pointer, View.data_setData, if_pos rfl, pointer_pointerBlock hp]
  have htight : w.Tightens sb (w.setData s (pointerBlock p)) := View.tightens_setData _
  refine ((runs_readPointer h hs').mono (fun _ _ hq => hq) fun _ _ he => he.1.tended hw).bind ?_
  rintro old u ⟨rfl, hu⟩
  refine ((runs_writeData hu hs' hpointed).mono (fun _ _ hq => hq) fun _ _ he => he.1.tended hw).bind
    fun _ x hx => ?_
  by_cases hold : w.pointer s = 0
  · rw [if_neg (not_not_intro hold)]
    refine .pure ⟨_, _, hx, hpointed, rfl, htight, ?_⟩
    rintro ⟨i, hi, hblock, -⟩
    exact ⟨i, hi, hblock.trans hself.symm⟩
  · rw [if_pos hold]
    refine (owned_dropShared hx hpointed _).mono ?_ fun _ y hy => hy.trans rfl htight
    rintro _ y ⟨w', free', hy, hw', hdropped⟩
    refine ⟨w', free', hy, hw', hdropped.keys, htight.trans hdropped.tightens, ?_⟩
    rintro ⟨i, hi, hblock, htwo⟩
    obtain ⟨hheld, hsame⟩ := hdropped.held (i := i) hi fun _ => htwo
    refine ⟨i, hheld, hsame.trans (hblock.trans ?_)⟩
    rw [View.pointer, hdropped.data hs, ← View.pointer, hself]

/-- Sharing the contents of a loose slot. The slot is still loose if an entry has the contents already,
and belongs to a new entry if not. If neither can be done it is given back. -/
theorem owned_shareCandidate (h : v.Shows sb r w free) (hw : w.Owned sb strict) (hs : w.Loose sb s)
    (content : Key) :
    Runs sb r (View.Owned sb strict)
      (shareCandidate ⟨sb.dedupStart, sb.dedupBlocks⟩ s (sb.dataBlock s) content) v
      (fun p u => ∃ w', u.Shows sb r w' free ∧ w'.Owned sb strict ∧ w'.keys = w.keys ∧ p < 2 ^ 64 ∧
        (p ≠ sb.dataBlock s → w'.Loose sb s) ∧
        (∀ t, w'.Loose sb t → (p = sb.dataBlock s → t ≠ s) ∧ w.Loose sb t) ∧
        (strict → w.Knows content →
          ∃ i, w'.Held i ∧ (w'.shared i).block = p ∧ 2 ≤ (w'.shared i).refCount.toNat))
      (fun _ u => ∃ w' free', u.Shows sb r w' free' ∧ w'.Owned sb strict ∧ w'.keys = w.keys ∧
        (r → ∀ t, w'.Loose sb t → t ≠ s ∧ w.Loose sb t)) := by
  have hlt := h.fits.dataBlock_lt_word hs.lt
  have hblock := block_newEntry content hlt
  refine .tryCatch ((runs_share h content (sb.dataBlock s) (fun i hi _ hroom => hw.share hi hroom)
    fun i hi _ _ => hw.enter hs hi hblock (Nat.le_refl 1)).mono ?_ fun _ _ he => he.1) ?_
  · rintro p u (⟨i, -, hi, hkey, hroom, rfl, hu⟩ | ⟨hno, rfl, i, hi, hidle, hu⟩)
    · -- The table has the contents, and not in the slot, as that is loose.
      refine ⟨_, hu, hw.share hi hroom, rfl, (w.shared i).blockPtr.toNat_lt, fun _ => hs.share hi,
        fun t ht => ⟨fun heq => absurd heq (hs.not_held hi), ?_⟩, ?_⟩
      · exact View.loose_recount (e := shareEntry (w.shared i)) hi hi rfl t ht
      intro hstrict _
      refine ⟨i, ?_, ?_, ?_⟩
      · rw [View.held_setShared, if_pos rfl]
        exact hi
      · rw [View.shared_setShared, if_pos rfl]
        rfl
      · rw [View.shared_setShared, if_pos rfl, refCount_shareEntry hroom]
        exact Nat.succ_le_succ (hw.counted hstrict hi).1
    · refine ⟨_, hu, hw.enter hs hi hblock (Nat.le_refl 1), rfl, hlt, fun hne => absurd rfl hne,
        fun t ht => ?_, ?_⟩
      · obtain ⟨hne, ht⟩ := View.loose_enter hidle (isActive_newEntry _ _) ht
        refine ⟨fun _ => ?_, ht⟩
        rintro rfl
        exact hne hblock
      · rintro - ⟨j, hj, hkey⟩
        exact absurd hkey (hno j (hw.held_lt hj) hj)
  · intro e u hu
    refine ((owned_reclaim hu hw hs).mono (fun _ _ hq => hq) fun _ x hx => ?_).bind fun _ x hx => ?_
    · obtain ⟨⟨w', free', hx, hw', hkeys, -⟩, hr⟩ := hx
      exact ⟨w', free', hx, hw', hkeys, fun hr' => absurd hr' hr⟩
    · exact .throw ⟨_, _, hx, hw.reclaimed hs, rfl, fun _ _ => View.loose_reclaimed⟩

/-- Giving a loose slot back if a block is not the slot's own. Nothing else becomes loose. -/
theorem owned_dismissCandidate (h : v.Shows sb r w free) (hw : w.Owned sb strict) {p : Nat}
    (hs : p ≠ sb.dataBlock s → w.Loose sb s) :
    Runs sb r (View.Owned sb strict) (dismissCandidate s (sb.dataBlock s) p) v
      (fun _ u => ∃ w' free', u.Shows sb r w' free' ∧ w'.Owned sb strict ∧ w'.keys = w.keys ∧
        w'.shared = w.shared ∧
        ∀ t, w'.Loose sb t → (p ≠ sb.dataBlock s → t ≠ s) ∧ w.Loose sb t)
      (fun _ u => u.Tended sb r strict w ∧ ¬ r) := by
  rw [dismissCandidate]
  by_cases hp : p = sb.dataBlock s
  · rw [if_neg (not_not_intro hp)]
    exact .pure ⟨w, free, h, hw, rfl, rfl, fun t ht => ⟨fun hne => absurd hp hne, ht⟩⟩
  · rw [if_pos hp]
    refine (owned_reclaim h hw (hs hp)).mono (fun _ u hu => ?_) fun _ _ he => he
    refine ⟨_, _, hu, hw.reclaimed (hs hp), rfl, rfl, fun t ht => ?_⟩
    exact ⟨fun _ => (View.loose_reclaimed ht).1, (View.loose_reclaimed ht).2⟩

theorem owned_storeShared (h : v.Shows sb r w free) (hw : w.Owned sb strict) (hs : w.Active s)
    (b : Block) :
    Runs sb r (View.Owned sb strict) (storeShared ⟨sb.dedupStart, sb.dedupBlocks⟩ s b) v
      (fun _ u => ∃ w' free', u.Shows sb r w' free' ∧ w'.Owned sb strict ∧ w'.keys = w.keys ∧
        w.Tightens sb w' ∧ (strict → w.Knows (contentHash b.bytes) → w'.Reaches s))
      (fun _ u => u.Tended sb r strict w) := by
  rw [storeShared_eq]
  refine ((runs_acquire h fun c _ _ => hw.use c).mono (fun _ _ hq => hq)
    fun _ _ he => he.1.tended hw).bind ?_
  rintro c u ⟨rest, hfree, hu⟩
  obtain ⟨hc, hclear⟩ := h.mem_free.1 (hfree ▸ List.mem_cons_self)
  have hfill := (hw.use c).setData c b
  have hloose := (hw.loose_use hc hclear).setData b
  -- But for the candidate, no slot has become loose.
  have hold {t : Nat} (hne : t ≠ c) (ht : ((w.setUsed c true).setData c b).Loose sb t) : w.Loose sb t :=
    (View.loose_setUsed (View.tightens_setData b t ht)).resolve_left hne
  refine .get_bind ?_
  rw [hu.superblock]
  have hfailed {x : Volume} (hx : x.Shows sb r (w.setUsed c true) rest ∧ ¬ r) :
      x.Tended sb r strict w := (hx.1.tended (hw.use c)).of_not rfl hx.2
  refine ((runs_writeData hu hc hfill).mono (fun _ _ hq => hq) fun _ _ he => hfailed he).bind
    fun _ x hx => ?_
  refine ((owned_shareCandidate hx hfill hloose (contentHash b.bytes)).mono (fun _ _ hq => hq)
    fun _ y hy => ?_).bind ?_
  · obtain ⟨w', free', hy, hw', hkeys, htight⟩ := hy
    exact ⟨w', free', hy, hw', hkeys, fun hr t ht => hold (htight hr t ht).1 (htight hr t ht).2⟩
  rintro p y ⟨w', hy, hw', hkeys, hp, hstill, htight, hknown⟩
  refine ((owned_dismissCandidate hy hw' hstill).mono (fun _ _ hq => hq)
    fun _ _ hz => hz.1.of_not (w := w) hkeys hz.2).bind ?_
  rintro - z ⟨w'', free'', hz, hw'', hk, hshared, hleft⟩
  have hkeys' : w''.keys = w.keys := hk.trans hkeys
  have hs'' : w''.Active s := by
    rw [View.Active, hkeys']
    exact hs
  have htight' : w.Tightens sb w'' := by
    intro t ht
    obtain ⟨hgone, ht⟩ := hleft t ht
    obtain ⟨hown, ht⟩ := htight t ht
    by_cases hpc : p = sb.dataBlock c
    · exact hold (hown hpc) ht
    · exact hold (hgone hpc) ht
  refine (owned_redirect hz hw'' hs'' hp).mono ?_ fun _ a ha => ha.trans hkeys' htight'
  rintro _ a ⟨x, free', ha, hx, hkx, htx, hreach⟩
  refine ⟨x, free', ha, hx, hkx.trans hkeys', htight'.trans htx, fun hstrict hknows => hreach ?_⟩
  obtain ⟨i, hi, hblock, htwo⟩ := hknown hstrict hknows
  rw [← hshared] at hblock htwo
  exact ⟨i, by rw [View.Held, hshared]; exact hi, hblock, htwo⟩

/-- Storing the value of a slot. On a deduplicating volume that knows the contents already, the pointer
of the slot then leads to a dedup entry. -/
theorem owned_store (h : v.Shows sb r w free) (hw : w.Owned sb strict) (hs : w.Active s) (b : Block) :
    Runs sb r (View.Owned sb strict) (store s b) v
      (fun _ u => ∃ w' free', u.Shows sb r w' free' ∧ w'.Owned sb strict ∧ w'.keys = w.keys ∧
        w.Tightens sb w' ∧ (sb.isDedup → strict → w.Knows (contentHash b.bytes) → w'.Reaches s))
      (fun _ u => u.Tended sb r strict w) := by
  refine .get_bind ?_
  rw [h.dedupTable_eq]
  cases hd : sb.isDedup with
  | true =>
    refine (owned_storeShared h hw hs b).mono ?_ fun _ _ he => he
    rintro _ u ⟨w', free', hu, hw', hkeys, htight, hreach⟩
    exact ⟨w', free', hu, hw', hkeys, htight, fun _ => hreach⟩
  | false =>
    refine (runs_writeData h (hw.active_lt hs) (hw.setData s b)).mono (fun _ u hu => ?_)
      fun _ _ he => he.1.tended hw
    exact ⟨_, free, hu, hw.setData s b, rfl, View.tightens_setData b, fun hd' => by simp at hd'⟩

/-! ### The operations -/

/-- Entering a key in a loose slot. Its entry may be in the way. -/
theorem owned_allocate (h : v.Shows sb r w free) (hw : w.Owned sb strict) (hs : w.Loose sb s) (key : Key)
    (now : Timestamp) :
    Runs sb r (View.Owned sb strict)
      (onDevice (KeyTable.allocate ⟨sb.keysStart, sb.slots⟩ s key now)) v
      (fun _ u => u.Shows sb r (w.setKey s (.active key now)) free)
      (fun _ u => r → u.Shows sb r w free ∧ (w.keys s).isFree = false) := by
  rw [KeyTable.allocate, onDevice_bind, onDevice_look]
  refine ((runs_readEntry h hs.lt).mono (fun _ _ hq => hq) fun _ _ he hr => absurd hr he.2).bind ?_
  rintro e u ⟨rfl, hu⟩
  by_cases hfree : (w.keys s).isFree
  · rw [if_pos hfree]
    exact (runs_writeKey hu hs.lt (hw.activate (.inl hs) _)).mono (fun _ _ hq => hq)
      fun _ _ he hr => absurd hr he.2
  · rw [if_neg hfree]
    exact .throw fun _ => ⟨hu, Bool.eq_false_iff.2 hfree⟩

/-- A slot that has got a key is not loose. -/
theorem tightens_created (w : View) (s : Nat) (key : Key) (now : Timestamp) :
    w.Tightens sb (w.created s key now) := fun t ht => by
  obtain ⟨hts, ht⟩ := View.loose_activate (View.isActive_active key now) ht
  exact (View.loose_setUsed ht).resolve_left hts

/-- Creating a key. If the key cannot be entered, the slot is lost. -/
theorem owned_create (h : v.Shows sb r w free) (hw : w.Owned sb strict) (key : Key) (now : Timestamp) :
    Runs sb r (View.Owned sb strict) (create key now) v
      (fun s u => ∃ free', u.Shows sb r (w.created s key now) free' ∧
        (w.created s key now).Owned sb strict)
      (fun _ u => r → w.Fresh sb → u.Tightened sb r w) := by
  refine ((runs_contains h key).mono (fun _ _ hq => hq) fun _ _ he hr => absurd hr he.2).bind ?_
  rintro found u ⟨rfl, hu⟩
  by_cases hfound : (w.slotOf sb key).isSome
  · rw [if_pos hfound]
    exact .bind (Q := fun _ _ => False) (.throw fun _ _ => ⟨w, free, hu, .rfl⟩) fun _ _ h => h.elim
  · rw [if_neg hfound]
    refine ((runs_acquire hu fun s _ _ => hw.use s).mono (fun _ _ hq => hq)
      fun _ _ he _ _ => ⟨w, free, he.1, .rfl⟩).bind ?_
    rintro s x ⟨rest, hcons, hx⟩
    obtain ⟨hs, hclear⟩ := h.mem_free.1 (hcons ▸ List.mem_cons_self)
    have hloose := hw.loose_use hs hclear
    refine .get_bind ?_
    rw [hx.keyTable_eq]
    refine ((owned_allocate hx (hw.use s) hloose key now).mono (fun _ _ hq => hq)
      fun _ y hy hr hfresh => ?_).bind fun _ y hy => ?_
    · have hfree := hfresh hs hclear
      rw [show (w.keys s).isFree = false from (hy hr).2] at hfree
      cases hfree
    · exact .pure ⟨rest, hy, (hw.use s).activate (.inl hloose) _⟩

/-- Finding the slot of a key, or creating the key. -/
theorem owned_obtain (h : v.Shows sb r w free) (hw : w.Owned sb strict) (key : Key) (now : Timestamp) :
    Runs sb r (View.Owned sb strict) (obtain key now) v
      (fun a u => ∃ w' free', u.Shows sb r w' free' ∧ w'.Owned sb strict ∧ w'.Holds key a.1 ∧
        w'.shared = w.shared ∧ w.Tightens sb w')
      (fun _ u => r → w.Fresh sb → u.Tightened sb r w) := by
  have hlook : Runs sb r (View.Owned sb strict) (look fun v => .ok (v.lookup key)) v
      (fun a u => a = v.lookup key ∧ u.Shows sb r w free)
      (fun _ u => r → w.Fresh sb → u.Tightened sb r w) := by
    refine .look (fun a ha => ?_) fun e he => by cases he
    cases ha
    exact ⟨rfl, h.tick⟩
  refine hlook.bind ?_
  rintro _ u ⟨rfl, hu⟩
  rcases h.lookup_cases key with ⟨s, hok, hs⟩ | ⟨hnone, -⟩ | ⟨⟨e, herror⟩, hr⟩
  · rw [hok]
    exact .pure ⟨w, free, hu, hw, (View.slotOf_eq_some hs).2, rfl, .rfl⟩
  · rw [hnone]
    refine (owned_create hu hw key now).bind fun s x hx => ?_
    obtain ⟨free', hx, hw'⟩ := hx
    refine .pure ⟨_, free', hx, hw', ⟨View.active_created w s key now, ?_⟩, rfl,
      tightens_created w s key now⟩
    rw [View.keys_created_self]
    rfl
  · rw [herror]
    exact .throw fun hr' => absurd hr' hr

/-- Storing a value, and discarding a new key again if that fails. -/
theorem owned_storeOrDiscard (h : v.Shows sb r w free) (hw : w.Owned sb strict) {key : Key}
    (hs : w.Holds key s) (isNew : Bool) (b : Block) (stored : Timestamp) :
    Runs sb r (View.Owned sb strict) (storeOrDiscard s isNew b stored) v
      (fun a u => ∃ w' free', u.Shows sb r w' free' ∧ w'.Holds key a ∧ w.Tightens sb w' ∧
        (sb.isDedup → strict → w.Knows (contentHash b.bytes) → w'.Reaches a))
      (fun _ u => r → u.Tightened sb r w) := by
  refine (((owned_store h hw hs.1 b).mono (fun _ _ hq => hq) fun _ _ he => he).tryCatch ?_).bind ?_
  · rintro e u ⟨w', free', hu, hw', hkeys, htight⟩
    cases isNew with
    | false => exact .throw fun hr => ⟨w', free', hu, htight hr⟩
    | true =>
      have hs' : w'.Active s := by
        rw [View.Active, hkeys]
        exact hs.1
      refine .bind (Q := fun _ x => r → x.Tightened sb r w) (.tryCatch
        ((owned_discardSlot hu hw' hs').mono (fun _ x hx hr => ?_) fun _ _ he => he)
        fun _ _ hr => .pure fun hr' => absurd hr' hr) fun _ x hx => .throw hx
      exact ⟨_, _, hx, (htight hr).trans (tightens_discarded s)⟩
  · rintro _ u ⟨w', free', hu, hw', hkeys, htight, hreach⟩
    have hs' : w'.Holds key s := by
      rw [View.Holds, hkeys]
      exact hs
    have hlt := hw'.active_lt hs'.1
    have hentry : ({ w'.keys s with timestamp := stored } : KeyEntry).isActive := hs'.1
    refine .get_bind ?_
    rw [hu.keyTable_eq]
    refine ((runs_touch hu hlt hs'.1 stored (hw'.activate (.inr hs'.1) _)).mono (fun _ _ hq => hq)
      fun _ _ he hr => absurd hr he.2).bind fun _ x hx => ?_
    refine .pure ⟨_, free', hx, ?_, fun t ht => htight t (View.loose_activate hentry ht).2, hreach⟩
    rw [View.Holds, View.keys_setKey, if_pos rfl]
    exact hs'

/-- Storing a value under a key. If a deduplicating volume knows the contents already, the slot of the
key then points at the block of a dedup entry. -/
theorem owned_put (h : v.Shows sb r w free) (hw : w.Owned sb strict) (key : Key) (data : ByteArray)
    (created stored : Timestamp) :
    Runs sb r (View.Owned sb strict) (put key data created stored) v
      (fun s u => ∃ w' free', u.Shows sb r w' free' ∧ w'.Holds key s ∧ w.Tightens sb w' ∧
        (sb.isDedup → strict → w.Knows (contentHash (Block.ofBytes data).bytes) → w'.Reaches s))
      (fun _ u => r → w.Fresh sb → u.Tightened sb r w) := by
  rw [put_eq]
  by_cases hsize : blockSize < data.size
  · rw [if_pos hsize]
    exact .throw fun _ _ => ⟨w, free, h, .rfl⟩
  rw [if_neg hsize]
  refine (owned_obtain h hw key created).bind ?_
  rintro ⟨s, isNew⟩ u ⟨w', free', hu, hw', hs, hshared, htight⟩
  refine (owned_storeOrDiscard hu hw' hs isNew (.ofBytes data) stored).mono ?_ ?_
  · rintro a x ⟨w'', free'', hx, ha, htight', hreach⟩
    refine ⟨w'', free'', hx, ha, htight.trans htight', fun hd hstrict hknows => hreach hd hstrict ?_⟩
    rw [View.Knows] at hknows ⊢
    simp only [View.Held, hshared] at hknows ⊢
    exact hknows
  · intro _ x hx hr _
    obtain ⟨w'', free'', hx, htight'⟩ := hx hr
    exact ⟨w'', free'', hx, htight.trans htight'⟩

theorem owned_remove (h : v.Shows sb r w free) (hw : w.Owned sb strict) (key : Key) :
    Runs sb r (View.Owned sb strict) (remove key) v (fun _ u => u.Tightened sb r w)
      (fun _ u => r → u.Tightened sb r w) := by
  refine ((runs_lookup h key).mono (fun _ _ hq => hq) fun _ _ he _ => ⟨w, free, he.1, .rfl⟩).bind ?_
  rintro s u ⟨hslot, hu⟩
  obtain ⟨hlt, hs, -⟩ := View.slotOf_eq_some hslot
  have hdiscarded := (hw.freeKey s).reclaimed (hw.loose_freed hs)
  have htight : w.Tightens sb ((w.setKey s .free).reclaimed s) := tightens_discarded s
  refine .get_bind ?_
  rw [hu.dedupTable_eq]
  cases hd : sb.isDedup with
  | false =>
    exact (owned_discardSlot hu hw hs).mono (fun _ _ hx => ⟨_, _, hx, htight⟩)
      fun _ _ he hr => absurd hr he
  | true =>
    refine ((runs_readPointer hu hlt).mono (fun _ _ hq => hq) fun _ _ he hr => absurd hr he.2).bind ?_
    rintro _ x ⟨rfl, hx⟩
    refine ((owned_discardSlot hx hw hs).mono (fun _ _ hq => hq) fun _ _ he hr => absurd hr he).bind
      fun _ y hy => ?_
    by_cases hp : w.pointer s = 0
    · rw [if_neg (not_not_intro hp)]
      exact .pure ⟨_, _, hy, htight⟩
    · rw [if_pos hp]
      refine (owned_dropShared hy hdiscarded _).mono ?_ ?_
      · rintro _ z ⟨w', free', hz, -, hdropped⟩
        exact ⟨w', free', hz, htight.trans hdropped.tightens⟩
      · rintro _ z ⟨w', free', hz, -, -, htight'⟩ hr
        exact ⟨w', free', hz, htight.trans (htight' hr)⟩

theorem owned_rename (h : v.Shows sb r w free) (hw : w.Owned sb strict) (old new : Key) :
    Runs sb r (View.Owned sb strict) (rename old new) v (fun _ u => u.Tightened sb r w)
      (fun _ u => r → u.Tightened sb r w) := by
  refine ((runs_lookup h old).mono (fun _ _ hq => hq) fun _ _ he _ => ⟨w, free, he.1, .rfl⟩).bind ?_
  rintro s u ⟨hslot, hu⟩
  obtain ⟨hlt, hs, -⟩ := View.slotOf_eq_some hslot
  by_cases hne : old = new
  · rw [if_neg (not_not_intro hne)]
    exact .pure ⟨w, free, hu, .rfl⟩
  rw [if_pos hne]
  refine ((runs_contains hu new).mono (fun _ _ hq => hq) fun _ _ he hr => absurd hr he.2).bind ?_
  rintro found x ⟨rfl, hx⟩
  by_cases hfound : (w.slotOf sb new).isSome
  · rw [if_pos hfound]
    exact .bind (Q := fun _ _ => False) (.throw fun _ => ⟨w, free, hx, .rfl⟩) fun _ _ h => h.elim
  · have hentry : ({ w.keys s with key := new } : KeyEntry).isActive := hs
    rw [if_neg hfound]
    refine .get_bind ?_
    rw [hx.keyTable_eq]
    refine (runs_renameKey hx hlt hs new (hw.activate (.inr hs) _)).mono (fun _ y hy => ?_)
      fun _ _ he hr => absurd hr he.2
    exact ⟨_, free, hy, fun t ht => (View.loose_activate hentry ht).2⟩

end Volume

end BlockStore
