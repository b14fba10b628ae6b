import BlockStore.Proofs.Tables

/-!
# Giving slots back and storing values

The parts that the operations have in common: what a slot goes through on its way back to the free
list, and how a value is stored. Each keeps the volume sound at every write. The conditions on the way
are about the key entries and the stored map, which is all that a crash lets a user see.

## Main definitions

* `Volume.shareCandidate`, `dismissCandidate`, `redirect`: the steps of storing shared contents.
* `View.Keeps`: the view is sound, and its entries and its map satisfy a condition.
* `View.reclaimed`: the view after a slot was given back.
* `View.Bare`: a key to which no block belongs; `View.Settles`: what storing a value does to pointers.
* `Superblock.Alike`: a block that may stand for another one in a value.
* `Volume.Distinct`: the assumption under which only the block itself may.

## Main results

* `Volume.runs_reclaim`, `runs_discardSlot`, `runs_dropShared`: giving back.
* `Volume.runs_storeShared`, `runs_store`: storing a value.
-/

namespace BlockStore

/-- What a deduplicating volume may hold in the place of `b`: a block that it has stored before, with
the same content key. On a plain volume only `b` itself. -/
def Superblock.Alike (sb : Superblock) (P : Block → Prop) (b b' : Block) : Prop :=
  if sb.isDedup then contentHash b'.bytes = contentHash b.bytes ∧ P b' else b' = b

namespace Volume

/-- The blocks for which `P` holds have different content keys. -/
def Distinct (P : Block → Prop) : Prop :=
  ∀ a b, P a → P b → contentHash a.bytes = contentHash b.bytes → a = b

theorem eq_of_alike {sb : Superblock} {P : Block → Prop} (hP : sb.isDedup → Distinct P) {b b' : Block} (hb : P b)
    (h : sb.Alike P b b') : b' = b := by
  rw [Superblock.Alike] at h
  split at h
  · rename_i hd
    exact hP hd b' b h.2 hb h.1
  · exact h

end Volume

namespace View

variable {sb : Superblock} {length : Nat} {P : Block → Prop} {σ : Nat → Nat} {w : View} {s i : Nat}

/-- The volume has no damage, and its key entries and its map satisfy `A`. -/
def Keeps (sb : Superblock) (P : Block → Prop) (A : (Nat → KeyEntry) → KeyMap → Prop) (w : View) :
    Prop := ∃ σ, w.Sound sb P σ ∧ A w.keys (w.contents sb)

theorem Keeps.mono {A B : (Nat → KeyEntry) → KeyMap → Prop} (hAB : ∀ k M, A k M → B k M)
    (h : w.Keeps sb P A) : w.Keeps sb P B := by
  obtain ⟨σ, hw, hA⟩ := h
  exact ⟨σ, hw, hAB _ _ hA⟩

/-- The view after a slot was zeroed and its bit was cleared. -/
def reclaimed (w : View) (s : Nat) : View := (w.setData s .zero).setUsed s false

theorem data_reclaimed_of_ne {t : Nat} (h : t ≠ s) : (w.reclaimed s).data t = w.data t := if_neg h

/-- The slot has a key and its pointer leads nowhere. -/
def Bare (w : View) (s : Nat) : Prop := w.Active s ∧ w.pointer s = 0

/-- The slot has a pointer that leads somewhere, with nothing behind it in its block, and the pointers of
the other keys are as before. -/
structure Settles (w : View) (s : Nat) (w' : View) : Prop where
  self : w'.pointer s ≠ 0
  written : w'.data s = Volume.pointerBlock (w'.pointer s)
  others : ∀ {t}, w.Active t → t ≠ s → w'.pointer t = w.pointer t

/-- A key that has no block after a value was stored had none before, and it is another key. -/
theorem Settles.of_bare {w' : View} (h : w.Settles s w') (hkeys : w'.keys = w.keys) {t : Nat}
    (ht : w'.Bare t) : t ≠ s ∧ w.Bare t := by
  obtain ⟨hactive, hpointer⟩ := ht
  have hts : t ≠ s := by
    rintro rfl
    exact h.self hpointer
  rw [Active, hkeys] at hactive
  exact ⟨hts, hactive, (h.others hactive hts).symm.trans hpointer⟩

theorem Loose.setData (h : w.Loose sb s) (b : Block) : (w.setData s b).Loose sb s :=
  ⟨h.lt, h.used, h.not_active, h.not_held⟩

theorem Loose.reclaimed {t : Nat} (h : w.Loose sb t) (hts : t ≠ s) : (w.reclaimed s).Loose sb t where
  lt := h.lt
  used := (if_neg hts).trans h.used
  not_active := h.not_active
  not_held := h.not_held

/-- A slot with a clear bit and a block of zeros, taken, filled and given back, is as it was. -/
theorem reclaimed_setUsed (hclear : w.used s = false) (hdata : w.data s = .zero) (b : Block) :
    ((w.setUsed s true).setData s b).reclaimed s = w := by
  refine View.ext (fun _ => rfl) (fun _ => rfl) (fun t => ?_) fun t => ?_
  · by_cases ht : t = s <;> simp [View.reclaimed, ht, hclear]
  · by_cases ht : t = s <;> simp [View.reclaimed, ht, hdata]

namespace Sound

theorem reclaimed (h : w.Sound sb P σ) (hs : w.Loose sb s) : (w.reclaimed s).Sound sb P σ :=
  (h.setData hs .zero).release (hs.setData _) (by simp)

theorem contents_reclaimed (hfits : sb.Fits length) (h : w.Sound sb P σ) (hs : w.Loose sb s) :
    (w.reclaimed s).contents sb = w.contents sb := h.contents_setData hfits hs .zero

/-- Dropping the reference to a shared block that nothing holds. -/
theorem unref (h : w.Sound sb P (bump σ (w.shared i).block)) (hi : w.Held i) :
    (w.setShared i (Volume.unrefEntry (w.shared i))).Sound sb P σ := by
  obtain ⟨-, hcount⟩ := h.counted hi
  rw [bump_self] at hcount
  exact h.correct hi (by omega) (Nat.sub_le _ _) fun b hb => (bump_of_ne σ hb).symm

/-- Taking a reference for a pointer that is still to be written. -/
theorem share (h : w.Sound sb P σ) (hi : w.Held i)
    (hroom : (w.shared i).refCount.toNat + 1 < 1 <<< 16) :
    (w.setShared i (Volume.shareEntry (w.shared i))).Sound sb P (bump σ (w.shared i).block) := by
  obtain ⟨hpos, hcount⟩ := h.counted hi
  have hnat := Volume.refCount_shareEntry hroom
  refine h.recount hi hi rfl rfl ?_ ?_ fun b hb => bump_of_ne _ hb
  · omega
  · change w.refs sb (w.shared i).block + bump σ (w.shared i).block (w.shared i).block = _
    rw [bump_self]
    omega

/-- If every dedup entry is active, the table has fewer entries than the volume has slots, one of
which nothing references: the entries hold the blocks of different slots. -/
theorem capacity_lt (h : w.Sound sb P σ) (hs : w.Loose sb s) (hfull : ∀ i < sb.dedupCapacity, w.Held i) :
    sb.dedupCapacity < sb.slots := by
  have hnodup : (sb.dataBlock s :: (List.range sb.dedupCapacity).map fun i =>
      (w.shared i).block).Nodup := by
    rw [List.nodup_cons]
    refine ⟨?_, List.pairwise_map.2 (List.Pairwise.imp_of_mem ?_ List.nodup_range)⟩
    · intro hmem
      obtain ⟨i, hi, hblock⟩ := List.mem_map.1 hmem
      exact hs.not_held (hfull i (List.mem_range.1 hi)) hblock
    · intro i j hi hj hij hblock
      exact hij (h.block_inj (hfull i (List.mem_range.1 hi)) (hfull j (List.mem_range.1 hj)) hblock)
  have hsub : (sb.dataBlock s :: (List.range sb.dedupCapacity).map fun i => (w.shared i).block) ⊆
      (List.range sb.slots).map sb.dataBlock := by
    intro b hb
    rw [List.mem_map]
    rcases List.mem_cons.1 hb with rfl | hb
    · exact ⟨s, List.mem_range.2 hs.lt, rfl⟩
    · obtain ⟨i, hi, rfl⟩ := List.mem_map.1 hb
      obtain ⟨t, ht, hblock, -⟩ := h.home (hfull i (List.mem_range.1 hi))
      exact ⟨t, List.mem_range.2 ht, hblock.symm⟩
  have hlen := hnodup.length_le_of_subset hsub
  simp only [List.length_cons, List.length_map, List.length_range] at hlen
  omega

end Sound

/-- Why a dedup table has no room for one more reference to a content: its count is at the limit, or
all of a table that is too small for the volume is taken. -/
def Refuses (w : View) (sb : Superblock) (b : Block) (e : StoreError) : Prop :=
  (∃ i, w.Held i ∧ (w.shared i).key = contentHash b.bytes ∧ (w.shared i).refCount.toNat = 65535 ∧
    e = .refcountSaturated (w.shared i).block) ∨
  e = .tableFull ∧ sb.dedupCapacity < sb.slots

theorem Loose.share (h : w.Loose sb s) (hi : w.Held i) :
    (w.setShared i (Volume.shareEntry (w.shared i))).Loose sb s := by
  refine ⟨h.lt, h.used, h.not_active, fun {j} hj => ?_⟩
  by_cases hji : j = i
  · rw [hji, shared_setShared, if_pos rfl]
    exact h.not_held hi
  · simp only [Held, shared_setShared, if_neg hji] at hj ⊢
    exact h.not_held hj

end View

namespace Volume

variable {sb : Superblock} {r : Prop} {v u : Volume} {w : View} {free : List Nat}
  {P : Block → Prop} {σ : Nat → Nat} {s i : Nat} {A : (Nat → KeyEntry) → KeyMap → Prop}

/-! ### Giving back -/

theorem runs_reclaim (h : v.Shows sb r w free) (hw : w.Sound sb P σ) (hs : w.Loose sb s)
    (hA : A w.keys (w.contents sb)) :
    Runs sb r (View.Keeps sb P A) (reclaim s) v (fun _ u => u.Shows sb r (w.reclaimed s) (s :: free))
      (fun _ _ => ¬ r) := by
  have hzeroed : (w.setData s .zero).Keeps sb P A :=
    ⟨σ, hw.setData hs _, by rw [hw.contents_setData h.fits hs]; exact hA⟩
  have hdone : (w.reclaimed s).Keeps sb P A :=
    ⟨σ, hw.reclaimed hs, by rw [hw.contents_reclaimed h.fits hs]; exact hA⟩
  refine ((runs_writeData h hs.lt hzeroed).mono (fun _ _ hq => hq) fun _ _ he => he.2).bind
    fun _ u hu => ?_
  exact (runs_release hu hs.lt hs.used hdone).mono (fun _ _ hq => hq) fun _ _ he => he.2

theorem runs_discardSlot (h : v.Shows sb r w free) (hw : w.Sound sb P σ) (hs : w.Active s)
    (hA : A (w.setKey s .free).keys ((w.contents sb).erase (w.keys s).key)) :
    Runs sb r (View.Keeps sb P A) (discardSlot s) v
      (fun _ u => u.Shows sb r ((w.setKey s .free).reclaimed s) (s :: free)) (fun _ _ => ¬ r) := by
  have hcontents := hw.contents_freeKey hs
  rw [← hcontents] at hA
  refine .get_bind ?_
  rw [h.keyTable_eq]
  refine ((runs_writeKey h (hw.active_lt hs) ⟨_, hw.freeKey hs, hA⟩).mono (fun _ _ hq => hq)
    fun _ _ he => he.2).bind fun _ u hu => ?_
  exact runs_reclaim hu (hw.freeKey hs) (hw.loose_freeKey hs) hA

/-- Dropping a reference that no pointer holds. With the last one the block is given back. -/
theorem runs_dropShared (h : v.Shows sb r w free) (hw : w.Sound sb P (View.bump σ (w.shared i).block))
    (hi : w.Held i) (hA : A w.keys (w.contents sb)) :
    Runs sb r (View.Keeps sb P A)
      (dropShared ⟨sb.dedupStart, sb.dedupBlocks⟩ (w.shared i).block) v
      (fun _ u => ∃ w' free', u.Shows sb r w' free' ∧ w'.Sound sb P σ ∧ w'.keys = w.keys ∧
        w'.contents sb = w.contents sb ∧ ∀ {t}, w.Active t → w'.data t = w.data t) (fun _ _ => ¬ r) := by
  have hsound := hw.unref hi
  refine (runs_unref h hw hi ⟨σ, hsound, hA⟩).bind ?_
  rintro left u ⟨rfl, hu⟩
  obtain ⟨t, ht, hblock, -⟩ := hw.home hi
  by_cases hleft : (w.shared i).refCount.toNat - 1 = 0
  · rw [if_pos hleft]
    refine .get_bind ?_
    have hslot : u.superblock.slotOfBlock (w.shared i).block = some t := by
      rw [hu.superblock, hblock, Superblock.slotOfBlock_dataBlock ht]
    rw [unrefEntry, if_pos hleft] at hsound hu
    have hloose := hw.loose_freeShared hi ht hblock
    simp only [hslot]
    refine (runs_reclaim hu hsound hloose hA).mono (fun _ u' hu' => ?_) fun _ _ he => he
    refine ⟨_, _, hu', hsound.reclaimed hloose, rfl, hsound.contents_reclaimed h.fits hloose, ?_⟩
    intro x hx
    refine View.data_reclaimed_of_ne ?_
    rintro rfl
    exact hloose.not_active hx
  · rw [if_neg hleft]
    exact .pure ⟨_, _, hu, hsound, rfl, rfl, fun _ => rfl⟩

/-! ### Storing -/

/-- Looks the contents of a filled slot up in the dedup table, or enters them there. The slot is given back if
that fails. -/
def shareCandidate (table : DedupTable) (slot candidate : Nat) (content : Key) : VolumeM Nat := do
  try onDevice (table.share content candidate)
  catch e => do
    reclaim slot
    throw e

/-- Gives a slot back whose contents turned out to be in another block. -/
def dismissCandidate (slot candidate physical : Nat) : VolumeM Unit := do
  if physical ≠ candidate then
    reclaim slot

/-- Makes the pointer of a slot lead to a block, and drops the reference of the pointer that was there. -/
def redirect (table : DedupTable) (slot physical : Nat) : VolumeM Unit := do
  let old ← look (·.readPointer slot)
  writePointer slot physical
  if old ≠ 0 then
    dropShared table old

/-- Storing shared contents, in steps. -/
theorem storeShared_eq (table : DedupTable) (slot : Nat) (b : Block) :
    storeShared table slot b = (do
      let c ← acquire
      let sb := (← get).superblock
      writeData c b
      let physical ← shareCandidate table c (sb.dataBlock c) (contentHash b.bytes)
      dismissCandidate c (sb.dataBlock c) physical
      redirect table slot physical) := by
  unfold storeShared dismissCandidate
  refine bind_congr fun c => bind_congr fun v => bind_congr fun _ => bind_congr fun physical => ?_
  split
  · rfl
  · rfl

/-- Writing the pointer to a shared block for which a reference was taken, and dropping the reference
of the pointer that was there. -/
theorem runs_redirect (h : v.Shows sb r w free) (hd : sb.isDedup) (hi : w.Held i) {p t : Nat}
    (hp : (w.shared i).block = p) (hw : w.Sound sb P (View.bump σ p)) (hs : w.Active s)
    (ht : t < sb.slots) (hblock : p = sb.dataBlock t)
    (hA : A w.keys ((w.contents sb).insert (w.keys s).key (w.data t))) :
    Runs sb r (View.Keeps sb P A) (redirect ⟨sb.dedupStart, sb.dedupBlocks⟩ s p) v
      (fun _ u => ∃ w' free', u.Shows sb r w' free' ∧ w'.Sound sb P σ ∧ w'.keys = w.keys ∧
        w'.contents sb = (w.contents sb).insert (w.keys s).key (w.data t) ∧ w.Settles s w')
      (fun _ _ => ¬ r) := by
  subst hp
  have hlt : (w.shared i).block < 2 ^ 64 := (w.shared i).blockPtr.toNat_lt
  have hst : t ≠ s := by
    rintro rfl
    exact (hw.owner hi hblock).2.1 hs
  have hpoint := hw.setPointer hs (pointer_pointerBlock hlt) fun _ _ => ⟨i, hi, rfl⟩
  have hpointers : w.Settles s (w.setData s (pointerBlock (w.shared i).block)) := by
    refine ⟨?_, ?_, fun {x} _ hx => ?_⟩
    · rw [View.pointer, View.data_setData, if_pos rfl, pointer_pointerBlock hlt]
      exact View.block_ne_zero h.fits hw hi
    · rw [View.pointer, View.data_setData, if_pos rfl, pointer_pointerBlock hlt]
    · rw [View.pointer, View.data_setData, if_neg hx, View.pointer]
  have hvalue : (w.setData s (pointerBlock (w.shared i).block)).value sb s = w.data t := by
    rw [View.value_of_pointer_eq hd h.fits ht]
    · exact if_neg hst
    · rw [View.pointer, View.data_setData, if_pos rfl, pointer_pointerBlock hlt, hblock]
  have hcontents := hw.contents_setValue h.fits hpoint hs
  rw [hvalue] at hcontents
  have hA' := hA
  rw [← hcontents] at hA'
  refine ((runs_readPointer h (hw.active_lt hs)).mono (fun _ _ hq => hq) fun _ _ he => he.2).bind ?_
  rintro old u ⟨rfl, hu⟩
  refine ((runs_writeData hu (hw.active_lt hs) ⟨_, hpoint, hA'⟩).mono (fun _ _ hq => hq)
    fun _ _ he => he.2).bind fun _ x hx => ?_
  by_cases hold : w.pointer s = 0
  · rw [if_neg (not_not_intro hold)]
    refine .pure ⟨_, _, hx, hpoint.congr fun j hj => ?_, rfl, hcontents, hpointers⟩
    rw [hold]
    exact View.bump_of_ne _ (View.block_ne_zero h.fits hpoint hj)
  · rw [if_pos hold]
    obtain ⟨j, hj, hjs⟩ := hw.backed hd hs hold
    have hheld : (w.setData s (pointerBlock (w.shared i).block)).Held j := hj
    rw [← hjs] at hpoint ⊢
    refine (runs_dropShared hx hpoint hheld hA').mono ?_ fun _ _ he => he
    rintro _ y ⟨w', free', hy, hw', hkeys, hmap, hdata⟩
    refine ⟨w', free', hy, hw', hkeys, hmap.trans hcontents, ?_, ?_, fun {x} hx hxs => ?_⟩
    · rw [View.pointer, hdata hs]
      exact hpointers.self
    · rw [View.pointer, hdata hs]
      exact hpointers.written
    · rw [View.pointer, hdata hx]
      exact hpointers.others hx hxs

/-- Sharing the contents of a loose slot. Either an entry has them already and counts one more, or the
slot is entered; a reference is then taken, to be given to a pointer. If neither can be done the slot
is given back. -/
theorem runs_shareCandidate (h : v.Shows sb r w free) (hd : sb.isDedup) (hw : w.Sound sb P σ)
    (hs : w.Loose sb s) (hP : P (w.data s)) (hA : A w.keys (w.contents sb)) :
    Runs sb r (View.Keeps sb P A)
      (shareCandidate ⟨sb.dedupStart, sb.dedupBlocks⟩ s (sb.dataBlock s) (contentHash (w.data s).bytes)) v
      (fun p u => ∃ w' i t τ, u.Shows sb r w' free ∧ w'.Held i ∧ (w'.shared i).block = p ∧
        t < sb.slots ∧ p = sb.dataBlock t ∧ w'.Sound sb P (View.bump τ p) ∧ (∀ x, τ x ≤ σ x) ∧
        w'.keys = w.keys ∧ w'.data = w.data ∧ w'.contents sb = w.contents sb ∧
        sb.Alike P (w.data s) (w.data t) ∧ (p ≠ sb.dataBlock s → w'.Loose sb s))
      (fun e u => r → u.Shows sb r (w.reclaimed s) (s :: free) ∧ w.Refuses sb (w.data s) e) := by
  obtain ⟨b, hb⟩ : ∃ b, b = w.data s := ⟨_, rfl⟩
  -- Nothing shares the block of the slot, so it has no surplus to begin with.
  obtain ⟨τ, hτ⟩ : ∃ τ : Nat → Nat, τ = fun x => if x = sb.dataBlock s then 0 else σ x := ⟨_, rfl⟩
  have hwτ : w.Sound sb P τ := hw.congr fun i hi => by
    rw [hτ]
    exact (if_neg (hs.not_held hi)).symm
  have hτσ (x : Nat) : τ x ≤ σ x := by
    rw [hτ]
    dsimp only
    split
    · exact Nat.zero_le _
    · exact Nat.le_refl _
  have hlt := h.fits.dataBlock_lt_word hs.lt
  have henter (i : Nat) (hi : i < sb.dedupCapacity) (hidle : ¬ w.Held i)
      (hno : ∀ j < sb.dedupCapacity, w.Held j → (w.shared j).key ≠ contentHash b.bytes) :
      (w.setShared i (newEntry (contentHash b.bytes) (sb.dataBlock s))).Sound sb P
        (View.bump τ (sb.dataBlock s)) :=
    hwτ.enter hd h.fits hs hi hidle (isActive_newEntry _ _) (block_newEntry _ hlt) rfl
      (by rw [hb]; rfl) hP (fun j hj => hno j (hw.held_lt hj) hj) (by rw [hτ]; exact if_pos rfl)
  have halike (b' : Block) (hhash : contentHash b'.bytes = contentHash b.bytes) (hP' : P b') :
      sb.Alike P b b' := by
    rw [Superblock.Alike, if_pos hd]
    exact ⟨hhash, hP'⟩
  rw [← hb] at hP ⊢
  refine .tryCatch ((runs_share h _ _ (fun i hi _ hroom => ⟨_, hwτ.share hi hroom, hA⟩)
    fun i hi hidle hno => ⟨_, henter i hi hidle hno, hA⟩).mono ?_ fun _ _ he => he) ?_
  · rintro p u (⟨i, hi, hheld, hkey, hroom, rfl, hu⟩ | ⟨hno, rfl, i, hi, hidle, hu⟩)
    · obtain ⟨t, ht, hblock, -, -, hhash, hP'⟩ := hw.home hheld
      refine ⟨_, i, t, τ, hu, ?_, ?_, ht, hblock, hwτ.share hheld hroom, hτσ, rfl, rfl, rfl,
        halike _ (hhash.trans hkey) hP', fun _ => hs.share hheld⟩
      · simp only [View.Held, View.shared_setShared, if_true]
        exact hheld
      · simp only [View.shared_setShared, if_true]
        rfl
    · refine ⟨_, i, s, τ, hu, ?_, ?_, hs.lt, rfl, henter i hi hidle hno, hτσ, rfl, rfl, rfl,
        halike _ (by rw [hb]) (hb ▸ hP), fun hne => absurd rfl hne⟩
      · simp only [View.Held, View.shared_setShared, if_true]
        exact isActive_newEntry _ _
      · simp only [View.shared_setShared, if_true]
        exact block_newEntry _ hlt
  · rintro e u ⟨hu, hwhy⟩
    refine ((runs_reclaim hu hw hs hA).mono (fun _ _ hq => hq) fun e' u' hr' hr => absurd hr hr').bind
      fun _ x hx => .throw fun hr => ⟨hx, ?_⟩
    rcases hwhy with ⟨i, hi, hkey, hcount, rfl⟩ | ⟨rfl, hfull⟩ | hr'
    · exact .inl ⟨i, hi, hkey, hcount, rfl⟩
    · exact .inr ⟨rfl, hw.capacity_lt hs hfull⟩
    · exact absurd hr hr'

/-- Giving a loose slot back if a block is not the slot's own. -/
theorem runs_dismissCandidate (h : v.Shows sb r w free) (hw : w.Sound sb P σ)
    (hA : A w.keys (w.contents sb)) {p : Nat} (hs : p ≠ sb.dataBlock s → w.Loose sb s) :
    Runs sb r (View.Keeps sb P A) (dismissCandidate s (sb.dataBlock s) p) v
      (fun _ u => ∃ w' free', u.Shows sb r w' free' ∧ w'.Sound sb P σ ∧ w'.keys = w.keys ∧
        w'.shared = w.shared ∧ w'.contents sb = w.contents sb ∧
        ∀ {x}, (p ≠ sb.dataBlock s → x ≠ s) → w'.data x = w.data x)
      (fun _ _ => ¬ r) := by
  rw [dismissCandidate]
  by_cases hp : p = sb.dataBlock s
  · rw [if_neg (not_not_intro hp)]
    exact .pure ⟨w, free, h, hw, rfl, rfl, rfl, fun _ => rfl⟩
  · rw [if_pos hp]
    refine (runs_reclaim h hw (hs hp) hA).mono (fun _ u hu => ?_) fun _ _ he => he
    exact ⟨_, _, hu, hw.reclaimed (hs hp), rfl, rfl, hw.contents_reclaimed h.fits (hs hp),
      fun hx => View.data_reclaimed_of_ne (hx hp)⟩

/-- Making the pointer of a slot lead to a block with these contents, by way of a candidate block. If
that is refused, all is as before. -/
theorem runs_storeShared (h : v.Shows sb r w free) (hd : sb.isDedup) (hw : w.Sound sb P σ)
    (hs : w.Active s) {b : Block} (hP : P b) (hA : A w.keys (w.contents sb))
    (hA' : ∀ b', sb.Alike P b b' → A w.keys ((w.contents sb).insert (w.keys s).key b')) :
    Runs sb r (View.Keeps sb P A) (storeShared ⟨sb.dedupStart, sb.dedupBlocks⟩ s b) v
      (fun _ u => free ≠ [] ∧ ∃ w' free' τ b', u.Shows sb r w' free' ∧ w'.Sound sb P τ ∧
        (∀ x, τ x ≤ σ x) ∧ w'.keys = w.keys ∧ sb.Alike P b b' ∧
        w'.contents sb = (w.contents sb).insert (w.keys s).key b' ∧ w.Settles s w')
      (fun e u => r → u.Shows sb r w free ∧
        (e = .noSpace ∧ free = [] ∨ free ≠ [] ∧ w.Refuses sb b e)) := by
  rw [storeShared_eq]
  have hacq (c : Nat) : (w.setUsed c true).Keeps sb P A := ⟨σ, hw.use c, hA⟩
  refine ((runs_acquire h fun c _ _ => hacq c).mono (fun _ _ hq => hq) fun e u he => ?_).bind ?_
  · intro hr
    obtain ⟨rfl, hfree⟩ := he.2 hr
    exact ⟨he.1, .inl ⟨rfl, hfree⟩⟩
  rintro c u ⟨rest, hfree, hu⟩
  have hne : free ≠ [] := by rw [hfree]; exact List.cons_ne_nil _ _
  obtain ⟨hc, hclear⟩ := h.mem_free.1 (hfree ▸ List.mem_cons_self)
  have hloose := hw.loose_use hc hclear
  refine .get_bind ?_
  rw [hu.superblock]
  -- The candidate is filled.
  have hfill := (hw.use c).setData hloose b
  have hloose' := hloose.setData b
  have hmap : ((w.setUsed c true).setData c b).contents sb = w.contents sb :=
    (hw.use c).contents_setData h.fits hloose b
  refine ((runs_writeData hu hc ⟨σ, hfill, by rw [hmap]; exact hA⟩).mono (fun _ _ hq => hq)
    fun e u he hr => absurd hr he.2).bind fun _ x hx => ?_
  have hdata : ((w.setUsed c true).setData c b).data c = b := if_pos rfl
  have hshare := runs_shareCandidate (A := A) hx hd hfill hloose' (by rw [hdata]; exact hP)
    (by rw [hmap]; exact hA)
  rw [hdata] at hshare
  refine (hshare.mono (fun _ _ hq => hq) fun e y he hr => ?_).bind ?_
  · obtain ⟨hy, hwhy⟩ := he hr
    rw [View.reclaimed_setUsed hclear (hw.blank hclear), ← hfree] at hy
    exact ⟨hy, .inr ⟨hne, hwhy⟩⟩
  rintro p y ⟨w', i, t, τ, hy, hi, rfl, ht, hblock, hw', hτ, hkeys, hdata', hmap', halike, hkept⟩
  have hcontents : w'.contents sb = w.contents sb := hmap'.trans hmap
  obtain ⟨p, hp⟩ : ∃ p, p = (w'.shared i).block := ⟨_, rfl⟩
  rw [← hp] at hw' hblock hkept ⊢
  have hdismiss := runs_dismissCandidate (A := A) hy hw' (by rw [hcontents, hkeys]; exact hA) hkept
  refine (hdismiss.mono (fun _ _ hq => hq) fun _ _ he hr => absurd hr he).bind ?_
  rintro - z ⟨w'', free'', hz, hw'', hk, hshared, hm, hkeep⟩
  have hdt : w''.data t = ((w.setUsed c true).setData c b).data t := by
    rw [hkeep (by rintro hpc rfl; exact hpc hblock), hdata']
  have hold {a : Nat} (ha : w.Active a) : w''.data a = w.data a := by
    have hac : a ≠ c := by
      rintro rfl
      exact hloose.not_active ha
    rw [hkeep fun _ => hac, hdata']
    exact if_neg hac
  have hkeys' : w''.keys = w.keys := hk.trans hkeys
  have hactive {a : Nat} (ha : w.Active a) : w''.Active a := by
    rw [View.Active, hkeys']
    exact ha
  have hA'' := hA' _ halike
  rw [← hdt, ← hcontents, ← hm, ← hkeys'] at hA''
  refine (runs_redirect (i := i) hz hd (by rw [View.Held, hshared]; exact hi) (by rw [hshared, hp]) hw''
    (hactive hs) ht hblock hA'').mono ?_ fun _ _ he hr => absurd hr he
  rintro _ a ⟨x, free', ha, hx, hkx, hmx, hpointers⟩
  refine ⟨hne, x, free', τ, w''.data t, ha, hx, hτ, hkx.trans hkeys', ?_,
    by rw [hmx, hm, hkeys', hcontents], hpointers.self, hpointers.written, fun {y} hy hys => ?_⟩
  · rw [hdt]
    exact halike
  · rw [hpointers.others (hactive hy) hys, View.pointer, hold hy, View.pointer]

/-- Storing the value of a slot. -/
theorem runs_store (h : v.Shows sb r w free) (hw : w.Sound sb P σ) (hs : w.Active s) {b : Block}
    (hP : P b) (hA : A w.keys (w.contents sb))
    (hA' : ∀ b', sb.Alike P b b' → A w.keys ((w.contents sb).insert (w.keys s).key b')) :
    Runs sb r (View.Keeps sb P A) (store s b) v
      (fun _ u => (sb.isDedup → free ≠ []) ∧ ∃ w' free' τ b', u.Shows sb r w' free' ∧
        w'.Sound sb P τ ∧ (∀ x, τ x ≤ σ x) ∧ w'.keys = w.keys ∧ sb.Alike P b b' ∧
        w'.contents sb = (w.contents sb).insert (w.keys s).key b' ∧ (sb.isDedup → w.Settles s w'))
      (fun e u => r → sb.isDedup ∧ u.Shows sb r w free ∧
        (e = .noSpace ∧ free = [] ∨ free ≠ [] ∧ w.Refuses sb b e)) := by
  refine .get_bind ?_
  rw [h.dedupTable_eq]
  cases hd : sb.isDedup with
  | true =>
    refine (runs_storeShared h hd hw hs hP hA hA').mono ?_ fun e u he hr => ⟨rfl, he hr⟩
    rintro _ u ⟨hne, w', free', τ, b', hu, hw', hτ, hkeys, halike, hmap, hpointers⟩
    exact ⟨fun _ => hne, w', free', τ, b', hu, hw', hτ, hkeys, halike, hmap, fun _ => hpointers⟩
  | false =>
    have hsound := hw.setValue hd hs b
    have halike : sb.Alike P b b := by
      rw [Superblock.Alike, if_neg (by rw [hd]; decide)]
    have hmap := hw.contents_setValue h.fits hsound hs
    rw [View.value_of_plain hd, View.data_setData, if_pos rfl] at hmap
    refine (runs_writeData h (hw.active_lt hs) ⟨σ, hsound, by rw [hmap]; exact hA' b halike⟩).mono
      (fun _ u hu => ?_) fun e u he hr => absurd hr he.2
    exact ⟨fun hd' => by simp at hd', _, free, σ, b, hu, hsound, fun _ => Nat.le_refl _, rfl, halike,
      hmap, fun hd' => by simp at hd'⟩

end Volume

end BlockStore
