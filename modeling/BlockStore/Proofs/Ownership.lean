import BlockStore.Proofs.Sharing

/-!
# One owner for each slot

A slot in use belongs to a key, or to one dedup entry that holds its block, or to nobody. A volume that
keeps to this gives a slot back once and no more than once, whatever else is wrong with it: pointers may
lead anywhere, reference counts may be anything, and keys may be stored twice.

So this is what remains of `View.Sound` on an image that was mounted without looking at it. With the
condition `strict` the dedup entries are looked at as well: each holds the block of a slot, and counts
at least one reference.

The slots that belong to nobody are the loose ones. A write that orphans a slot is followed by those
that give it back, so no operation leaves a slot loose that was not loose before.

## Main definitions

* `View.Owned`: no slot has two owners, and every slot with an owner is in use.
* `View.Tightens`: no slot has become loose.

## Main results

* `View.Sound.owned`: a sound volume is like that, strictly.
* `View.Owned.use`, `release`, `setData`, `activate`, `freeKey`, `recount`, `enter`, `freeShared`: the
  changes that keep to it.
* `View.loose_setUsed`, `loose_activate`, `loose_recount` and so on: the slots that are loose afterwards.
-/

namespace BlockStore

namespace View

/-- No slot has two owners, and every slot with an owner is in use. If `strict`, every dedup entry holds
the block of a slot and counts a reference. -/
structure Owned (sb : Superblock) (strict : Prop) (w : View) : Prop where
  active_lt : ∀ {s}, w.Active s → s < sb.slots
  held_lt : ∀ {i}, w.Held i → i < sb.dedupCapacity
  used_of_active : ∀ {s}, w.Active s → w.used s
  /-- A slot whose block is shared is in use and has no key. -/
  owner : ∀ {i s}, w.Held i → s < sb.slots → (w.shared i).block = sb.dataBlock s →
    w.used s ∧ ¬ w.Active s
  /-- No block of a slot is shared twice. -/
  block_inj : ∀ {i j s}, w.Held i → w.Held j → s < sb.slots → (w.shared i).block = sb.dataBlock s →
    (w.shared j).block = sb.dataBlock s → i = j
  counted : ∀ {i}, strict → w.Held i →
    1 ≤ (w.shared i).refCount.toNat ∧ ∃ s < sb.slots, (w.shared i).block = sb.dataBlock s

/-- Every slot that is loose in `w'` is loose in `w`. -/
def Tightens (sb : Superblock) (w w' : View) : Prop := ∀ t, w'.Loose sb t → w.Loose sb t

variable {sb : Superblock} {length : Nat} {P : Block → Prop} {σ : Nat → Nat} {strict : Prop}
  {w w' w'' : View} {s t i : Nat}

theorem Tightens.rfl : w.Tightens sb w := fun _ h => h

theorem Tightens.trans (h : w.Tightens sb w') (h' : w'.Tightens sb w'') : w.Tightens sb w'' :=
  fun t ht => h t (h' t ht)

/-- A sound volume has an owner for each slot. -/
theorem Sound.owned (h : w.Sound sb P σ) : w.Owned sb strict where
  active_lt := h.active_lt
  held_lt := h.held_lt
  used_of_active := h.used_of_active
  owner hi _ hblock := ⟨(h.owner hi hblock).1, (h.owner hi hblock).2.1⟩
  block_inj hi hj _ hblock hblock' := h.block_inj hi hj (hblock.trans hblock'.symm)
  counted _ hi := by
    obtain ⟨s, hs, hblock, -⟩ := h.home hi
    exact ⟨(h.counted hi).1, s, hs, hblock⟩

/-! ### What a change makes of the owners -/

theorem isActive_free : KeyEntry.free.isActive = false := by decide

theorem not_held_free : DedupEntry.free.isActive = false := by decide

theorem active_setKey {e : KeyEntry} :
    (w.setKey s e).Active t ↔ if t = s then e.isActive = true else w.Active t := by
  rw [Active, keys_setKey]
  split <;> exact Iff.rfl

theorem active_setKey_free : (w.setKey s .free).Active t ↔ t ≠ s ∧ w.Active t := by
  rw [active_setKey]
  split
  · rename_i hts
    simp [hts, isActive_free]
  · rename_i hts
    simp [hts]

theorem held_setShared {e : DedupEntry} {j : Nat} :
    (w.setShared i e).Held j ↔ if j = i then e.isActive = true else w.Held j := by
  rw [Held, shared_setShared]
  split <;> exact Iff.rfl

theorem held_setShared_free {j : Nat} : (w.setShared i .free).Held j ↔ j ≠ i ∧ w.Held j := by
  rw [held_setShared]
  split
  · rename_i hji
    simp [hji, not_held_free]
  · rename_i hji
    simp [hji]

theorem shared_setShared_of_ne {e : DedupEntry} {j : Nat} (h : j ≠ i) :
    (w.setShared i e).shared j = w.shared j := by
  rw [shared_setShared, if_neg h]

/-! ### The slots that are loose afterwards -/

theorem loose_setUsed (h : (w.setUsed s true).Loose sb t) : t = s ∨ w.Loose sb t := by
  by_cases hts : t = s
  · exact .inl hts
  · have hused := h.used
    rw [used_setUsed, if_neg hts] at hused
    exact .inr ⟨h.lt, hused, h.not_active, h.not_held⟩

theorem loose_reclaimed (h : (w.reclaimed s).Loose sb t) : t ≠ s ∧ w.Loose sb t := by
  have hused := h.used
  rw [reclaimed, used_setUsed] at hused
  split at hused
  · cases hused
  · rename_i hts
    exact ⟨hts, h.lt, hused, h.not_active, h.not_held⟩

theorem tightens_setData (b : Block) : w.Tightens sb (w.setData s b) :=
  fun _ h => ⟨h.lt, h.used, h.not_active, h.not_held⟩

/-- A slot with a key is not loose. -/
theorem loose_activate {e : KeyEntry} (he : e.isActive) (h : (w.setKey s e).Loose sb t) :
    t ≠ s ∧ w.Loose sb t := by
  have hidle := h.not_active
  rw [active_setKey] at hidle
  split at hidle
  · exact absurd he hidle
  · rename_i hts
    exact ⟨hts, h.lt, h.used, hidle, h.not_held⟩

theorem loose_freeKey (h : (w.setKey s .free).Loose sb t) : t = s ∨ w.Loose sb t := by
  by_cases hts : t = s
  · exact .inl hts
  · have hidle := h.not_active
    rw [active_setKey_free, not_and] at hidle
    exact .inr ⟨h.lt, h.used, hidle hts, h.not_held⟩

/-- The owner of a block may count as many references as it likes. -/
theorem loose_recount {e : DedupEntry} (hi : w.Held i) (he : e.isActive)
    (hblock : e.block = (w.shared i).block) : w.Tightens sb (w.setShared i e) := by
  refine fun t h => ⟨h.lt, h.used, h.not_active, fun {j} hj hjt => ?_⟩
  by_cases hji : j = i
  · subst hji
    refine h.not_held (i := j) (held_setShared.2 (by rwa [if_pos rfl])) ?_
    rw [shared_setShared, if_pos rfl, hblock]
    exact hjt
  · refine h.not_held (i := j) (held_setShared.2 (by rwa [if_neg hji])) ?_
    rw [shared_setShared_of_ne hji]
    exact hjt

/-- A slot whose block is entered is not loose. -/
theorem loose_enter {e : DedupEntry} (hidle : ¬ w.Held i) (he : e.isActive)
    (h : (w.setShared i e).Loose sb t) : e.block ≠ sb.dataBlock t ∧ w.Loose sb t := by
  refine ⟨fun ht => h.not_held (i := i) (held_setShared.2 (by rwa [if_pos rfl])) ?_,
    h.lt, h.used, h.not_active, fun {j} hj hjt => ?_⟩
  · rw [shared_setShared, if_pos rfl]
    exact ht
  · have hji : j ≠ i := by
      rintro rfl
      exact hidle hj
    refine h.not_held (i := j) (held_setShared.2 (by rwa [if_neg hji])) ?_
    rw [shared_setShared_of_ne hji]
    exact hjt

theorem loose_freeShared (h : (w.setShared i .free).Loose sb t) :
    (w.shared i).block = sb.dataBlock t ∨ w.Loose sb t := by
  by_cases hblock : (w.shared i).block = sb.dataBlock t
  · exact .inl hblock
  · refine .inr ⟨h.lt, h.used, h.not_active, fun {j} hj hjt => ?_⟩
    have hji : j ≠ i := by
      rintro rfl
      exact hblock hjt
    refine h.not_held (i := j) (held_setShared_free.2 ⟨hji, hj⟩) ?_
    rw [shared_setShared_of_ne hji]
    exact hjt

namespace Owned

/-! ### Slots that become loose -/

/-- A slot that is not in use has no owner, so it is loose once its bit is set. -/
theorem loose_use (h : w.Owned sb strict) (hs : s < sb.slots) (hclear : w.used s = false) :
    (w.setUsed s true).Loose sb s where
  lt := hs
  used := by simp
  not_active hactive := by
    have hused : w.used s := h.used_of_active hactive
    rw [hclear] at hused
    cases hused
  not_held {i} hi hblock := by
    have hused := (h.owner (i := i) hi hs hblock).1
    rw [hclear] at hused
    cases hused

/-- A slot whose entry was freed is loose. -/
theorem loose_freed (h : w.Owned sb strict) (hs : w.Active s) : (w.setKey s .free).Loose sb s where
  lt := h.active_lt hs
  used := h.used_of_active hs
  not_active hactive := (active_setKey_free.1 hactive).1 rfl
  not_held {i} hi hblock := (h.owner (i := i) hi (h.active_lt hs) hblock).2 hs

/-- The slot of a dedup entry that was freed is loose. -/
theorem loose_unshared (h : w.Owned sb strict) (hi : w.Held i) (hs : s < sb.slots)
    (hblock : (w.shared i).block = sb.dataBlock s) : (w.setShared i .free).Loose sb s := by
  obtain ⟨hused, hidle⟩ := h.owner hi hs hblock
  refine ⟨hs, hused, hidle, fun {j} hj hjs => ?_⟩
  obtain ⟨hji, hj⟩ := held_setShared_free.1 hj
  rw [shared_setShared_of_ne hji] at hjs
  exact hji (h.block_inj hj hi hs hjs hblock)

/-! ### The changes -/

/-- Setting a bit. -/
theorem use (h : w.Owned sb strict) (s : Nat) : (w.setUsed s true).Owned sb strict := by
  have hused {t : Nat} (ht : w.used t) : (w.setUsed s true).used t := by
    rw [used_setUsed]
    split
    · rfl
    · exact ht
  exact { h with
    used_of_active := fun ht => hused (h.used_of_active ht)
    owner := fun hi hs hblock => ⟨hused (h.owner hi hs hblock).1, (h.owner hi hs hblock).2⟩ }

/-- Clearing the bit of a slot without an owner. -/
theorem release (h : w.Owned sb strict) (hs : w.Loose sb s) : (w.setUsed s false).Owned sb strict := by
  refine { h with used_of_active := fun {t} ht => ?_, owner := fun {i t} hi ht hblock => ?_ }
  · have hts : t ≠ s := by
      rintro rfl
      exact hs.not_active ht
    rw [used_setUsed, if_neg hts]
    exact h.used_of_active ht
  · have hts : t ≠ s := by
      rintro rfl
      exact hs.not_held hi hblock
    refine ⟨?_, (h.owner hi ht hblock).2⟩
    rw [used_setUsed, if_neg hts]
    exact (h.owner hi ht hblock).1

/-- Data blocks do not matter. -/
theorem setData (h : w.Owned sb strict) (s : Nat) (b : Block) : (w.setData s b).Owned sb strict :=
  { h with }

theorem reclaimed (h : w.Owned sb strict) (hs : w.Loose sb s) : (w.reclaimed s).Owned sb strict :=
  (h.setData s .zero).release (hs.setData _)

/-- Entering a key, in a loose slot or in a slot that has one. -/
theorem activate (h : w.Owned sb strict) (hs : w.Loose sb s ∨ w.Active s) (e : KeyEntry) :
    (w.setKey s e).Owned sb strict := by
  have hlt : s < sb.slots := hs.elim (·.lt) h.active_lt
  have hused : w.used s := hs.elim (·.used) h.used_of_active
  refine { h with active_lt := fun {t} ht => ?_, used_of_active := fun {t} ht => ?_,
                  owner := fun {i t} hi ht hblock => ⟨(h.owner hi ht hblock).1, fun hactive => ?_⟩ }
  · rw [active_setKey] at ht
    split at ht
    · rename_i hts
      exact hts ▸ hlt
    · exact h.active_lt ht
  · rw [active_setKey] at ht
    split at ht
    · rename_i hts
      exact hts ▸ hused
    · exact h.used_of_active ht
  · have hts : t ≠ s := by
      rintro rfl
      rcases hs with hs | hs
      · exact hs.not_held hi hblock
      · exact (h.owner hi ht hblock).2 hs
    rw [active_setKey, if_neg hts] at hactive
    exact (h.owner hi ht hblock).2 hactive

/-- Freeing the entry of a slot. -/
theorem freeKey (h : w.Owned sb strict) (s : Nat) : (w.setKey s .free).Owned sb strict :=
  { h with
    active_lt := fun ht => h.active_lt (active_setKey_free.1 ht).2
    used_of_active := fun ht => h.used_of_active (active_setKey_free.1 ht).2
    owner := fun hi hs hblock =>
      ⟨(h.owner hi hs hblock).1, fun ha => (h.owner hi hs hblock).2 (active_setKey_free.1 ha).2⟩ }

/-- Changing the reference count of an entry. -/
theorem recount (h : w.Owned sb strict) (hi : w.Held i) {e : DedupEntry}
    (hblock : e.block = (w.shared i).block) (hpos : strict → 1 ≤ e.refCount.toNat) :
    (w.setShared i e).Owned sb strict := by
  have hheld {j : Nat} (hj : (w.setShared i e).Held j) : w.Held j := by
    rw [held_setShared] at hj
    split at hj
    · rename_i hji
      exact hji ▸ hi
    · exact hj
  have hblocks (j : Nat) : ((w.setShared i e).shared j).block = (w.shared j).block := by
    rw [shared_setShared]
    split
    · rename_i hji
      rw [hblock, hji]
    · rfl
  refine { h with held_lt := fun hj => h.held_lt (hheld hj), owner := fun {j t} hj ht hjt => ?_,
                  block_inj := fun {j k t} hj hk ht hjt hkt => ?_,
                  counted := fun {j} hstrict hj => ?_ }
  · rw [hblocks] at hjt
    exact h.owner (hheld hj) ht hjt
  · rw [hblocks] at hjt hkt
    exact h.block_inj (hheld hj) (hheld hk) ht hjt hkt
  · rw [hblocks]
    refine ⟨?_, (h.counted hstrict (hheld hj)).2⟩
    rw [shared_setShared]
    split
    · exact hpos hstrict
    · exact (h.counted hstrict (hheld hj)).1

/-- Entering the block of a loose slot in the dedup table. -/
theorem enter (h : w.Owned sb strict) (hs : w.Loose sb s) (hi : i < sb.dedupCapacity)
    {e : DedupEntry} (hblock : e.block = sb.dataBlock s) (hpos : 1 ≤ e.refCount.toNat) :
    (w.setShared i e).Owned sb strict := by
  have hold {j : Nat} (hj : (w.setShared i e).Held j) (hji : j ≠ i) :
      w.Held j ∧ (w.setShared i e).shared j = w.shared j := by
    rw [held_setShared, if_neg hji] at hj
    exact ⟨hj, shared_setShared_of_ne hji⟩
  have hself : ((w.setShared i e).shared i).block = sb.dataBlock s := by
    rw [shared_setShared, if_pos rfl, hblock]
  -- Nothing else has the block of the slot, as it is loose.
  have hother {j t : Nat} (hj : (w.setShared i e).Held j) (hji : j ≠ i)
      (hjt : ((w.setShared i e).shared j).block = sb.dataBlock t) : t ≠ s := by
    rintro rfl
    obtain ⟨hj', hsame⟩ := hold hj hji
    rw [hsame] at hjt
    exact hs.not_held hj' hjt
  refine { h with held_lt := fun {j} hj => ?_, owner := fun {j t} hj ht hjt => ?_,
                  block_inj := fun {j k t} hj hk ht hjt hkt => ?_,
                  counted := fun {j} hstrict hj => ?_ }
  · by_cases hji : j = i
    · exact hji ▸ hi
    · exact h.held_lt (hold hj hji).1
  · by_cases hji : j = i
    · rw [hji, hself] at hjt
      obtain rfl := Superblock.dataBlock_inj hjt
      exact ⟨hs.used, hs.not_active⟩
    · obtain ⟨hj', hsame⟩ := hold hj hji
      rw [hsame] at hjt
      exact h.owner hj' ht hjt
  · by_cases hji : j = i <;> by_cases hki : k = i
    · rw [hji, hki]
    · rw [hji, hself] at hjt
      exact absurd (Superblock.dataBlock_inj hjt).symm (hother hk hki hkt)
    · rw [hki, hself] at hkt
      exact absurd (Superblock.dataBlock_inj hkt).symm (hother hj hji hjt)
    · obtain ⟨hj', hsame⟩ := hold hj hji
      obtain ⟨hk', hsame'⟩ := hold hk hki
      rw [hsame] at hjt
      rw [hsame'] at hkt
      exact h.block_inj hj' hk' ht hjt hkt
  · by_cases hji : j = i
    · rw [hji]
      refine ⟨?_, s, hs.lt, hself⟩
      rw [shared_setShared, if_pos rfl]
      exact hpos
    · obtain ⟨hj', hsame⟩ := hold hj hji
      rw [hsame]
      exact h.counted hstrict hj'

/-- Freeing a dedup entry. -/
theorem freeShared (h : w.Owned sb strict) (i : Nat) : (w.setShared i .free).Owned sb strict := by
  have hold {j : Nat} (hj : (w.setShared i .free).Held j) :
      w.Held j ∧ (w.setShared i .free).shared j = w.shared j :=
    ⟨(held_setShared_free.1 hj).2, shared_setShared_of_ne (held_setShared_free.1 hj).1⟩
  refine { h with held_lt := fun hj => h.held_lt (hold hj).1, owner := fun {j t} hj ht hjt => ?_,
                  block_inj := fun {j k t} hj hk ht hjt hkt => ?_,
                  counted := fun {j} hstrict hj => ?_ }
  · rw [(hold hj).2] at hjt
    exact h.owner (hold hj).1 ht hjt
  · rw [(hold hj).2] at hjt
    rw [(hold hk).2] at hkt
    exact h.block_inj (hold hj).1 (hold hk).1 ht hjt hkt
  · rw [(hold hj).2]
    exact h.counted hstrict (hold hj).1

end Owned

end View

end BlockStore
