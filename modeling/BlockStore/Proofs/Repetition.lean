import BlockStore.Proofs.Occupancy
import BlockStore.Proofs.Refusal
import BlockStore.Proofs.TimestampBytes

/-!
# Putting a value twice

Without faults, a value that has just been put can be put again, and nothing but the timestamp of its
entry shows it. On a deduplicating volume the second time is not idle: a slot is taken for a candidate
block, filled, and given back, and a reference to the shared block is taken and then dropped, since the
pointer that is replaced led to the same block. The reference is taken first, so the count never reaches
zero on the way, and the slot comes back to the head of the free list, where it was taken from.

## Main definitions

* `View.Refers`: a slot whose pointer leads to the block that a dedup entry has for some contents.
* `View.Stored`: what it is for a block to be the value of a slot.
* `View.Spare`, `Volume.HasRoomAgain`: what the second time needs of a deduplicating volume.
* `Volume.Restamps`: nothing has changed but the time of one entry.

## Main results

* `Volume.runs_store_again`: storing what is stored already leads back to the same view and free list.
* `Volume.put_again`: putting a value that has just been put.
-/

namespace BlockStore

namespace View

/-- The dedup entry has the contents of the block, and the slot has a pointer to its shared block, with
nothing behind the pointer. -/
structure Refers (w : View) (s i : Nat) (b : Block) : Prop where
  held : w.Held i
  content : (w.shared i).key = contentHash b.bytes
  written : w.data s = Volume.pointerBlock (w.shared i).block

/-- The block is the value of the slot: it is there itself or, on a deduplicating volume, referred to. -/
def Stored (w : View) (sb : Superblock) (s : Nat) (b : Block) : Prop :=
  if sb.isDedup then ∃ i, w.Refers s i b else w.data s = b

/-- There is room for the value of the slot once more: a free slot for the candidate block, and a reference
count that can go up by one. -/
def Spare (w : View) (sb : Superblock) (free : List Nat) (s : Nat) (b : Block) : Prop :=
  sb.isDedup → free ≠ [] ∧ ∀ i, w.Refers s i b → (w.shared i).refCount.toNat + 1 < 1 <<< 16

variable {sb : Superblock} {P : Block → Prop} {σ : Nat → Nat} {w : View} {s i : Nat} {b b' : Block}

theorem setData_self (w : View) (s : Nat) : w.setData s (w.data s) = w := by
  refine View.ext (fun _ => rfl) (fun _ => rfl) (fun _ => rfl) fun t => ?_
  rw [data_setData]
  split
  · rename_i ht
    rw [ht]
  · rfl

theorem setShared_setShared_self (w : View) (i : Nat) (e : DedupEntry) :
    (w.setShared i e).setShared i (w.shared i) = w := by
  refine View.ext (fun _ => rfl) (fun j => ?_) (fun _ => rfl) fun _ => rfl
  rw [shared_setShared, shared_setShared]
  split
  · rename_i hj
    rw [hj]
  · rfl

namespace Refers

theorem pointer_eq (h : w.Refers s i b) : w.pointer s = (w.shared i).block := by
  rw [pointer, h.written]
  exact Volume.pointer_pointerBlock (w.shared i).blockPtr.toNat_lt

/-- Writing the pointer once more changes nothing, whatever has become of the entry. -/
theorem setData_setShared (h : w.Refers s i b) (e : DedupEntry) :
    (w.setShared i e).setData s (Volume.pointerBlock (w.shared i).block) = w.setShared i e := by
  rw [← h.written]
  exact setData_self (w.setShared i e) s

end Refers

/-- The entry of a slot says nothing of its value. -/
theorem Stored.setKey (h : w.Stored sb s b) (t : Nat) (e : KeyEntry) : (w.setKey t e).Stored sb s b := by
  rw [Stored] at h ⊢
  by_cases hd : sb.isDedup
  · rw [if_pos hd] at h ⊢
    obtain ⟨i, hi⟩ := h
    exact ⟨i, hi.held, hi.content, hi.written⟩
  · rw [if_neg hd] at h ⊢
    exact h

/-- A slot that is settled and whose value may stand for a block refers to the entry with its contents. -/
theorem Settles.exists_refers {length : Nat} {u : View} (h : u.Settles s w) (hd : sb.isDedup)
    (hfits : sb.Fits length) (hw : w.Sound sb P σ) (hs : w.Active s) (halike : sb.Alike P b b')
    (hvalue : w.contents sb (w.keys s).key = some b') : ∃ i, w.Refers s i b := by
  obtain ⟨i, hi, hblock⟩ := hw.backed hd hs h.self
  obtain ⟨t, ht, hhome, -, -, hhash, -⟩ := hw.home hi
  have hvt : w.value sb s = w.data t := value_of_pointer_eq hd hfits ht (hblock.symm.trans hhome)
  have hb' : w.data t = b' := by
    rw [hw.contents_of_active hs, hvt] at hvalue
    exact Option.some.inj hvalue
  rw [Superblock.Alike, if_pos hd] at halike
  refine ⟨i, hi, ?_, ?_⟩
  · rw [← hhash, hb']
    exact halike.1
  · rw [h.written, hblock]

/-- No count is higher than the number of slots. -/
theorem Exact.refCount_le (h : w.Exact sb) (hi : w.Held i) : (w.shared i).refCount.toNat ≤ sb.slots := by
  have hcount := (h.sound.counted hi).2
  have hle : w.refs sb (w.shared i).block ≤ (List.range sb.slots).length := List.countP_le_length
  rw [List.length_range] at hle
  omega

end View

namespace Volume

variable {sb : Superblock} {r : Prop} {v u : Volume} {w : View} {free : List Nat} {P : Block → Prop}
  {σ : Nat → Nat} {s i : Nat} {b : Block}

/-! ### Storing what is stored -/

/-- A reference that is taken and dropped again leaves no trace. -/
theorem unrefEntry_shareEntry {e : DedupEntry} (hpos : 1 ≤ e.refCount.toNat)
    (hroom : e.refCount.toNat + 1 < 1 <<< 16) : unrefEntry (shareEntry e) = e := by
  have hcount := refCount_shareEntry hroom
  have hback : UInt16.ofNat ((shareEntry e).refCount.toNat - 1) = e.refCount := by
    rw [← UInt16.toNat_inj, refCount_unrefEntry, hcount]
    exact Nat.add_sub_cancel _ _
  rw [unrefEntry_of_ne_zero (by omega), hback]
  rfl

/-- Dropping a reference that has just been taken to a block with another one. -/
theorem runs_dropShared_again (h : v.Shows sb r (w.setShared i (shareEntry (w.shared i))) free)
    (hw : w.Sound sb P σ) (hi : w.Held i) (hroom : (w.shared i).refCount.toNat + 1 < 1 <<< 16) :
    Runs sb r (fun _ => True) (dropShared ⟨sb.dedupStart, sb.dedupBlocks⟩ (w.shared i).block) v
      (fun _ u => u.Shows sb r w free) (fun _ _ => ¬ r) := by
  obtain ⟨hpos, -⟩ := hw.counted hi
  have hself : (w.setShared i (shareEntry (w.shared i))).shared i = shareEntry (w.shared i) := if_pos rfl
  have hheld : (w.setShared i (shareEntry (w.shared i))).Held i := by
    rw [View.Held, hself]
    exact hi
  have hunref := runs_unref (C := fun _ => True) h (hw.share hi hroom) hheld trivial
  rw [hself, unrefEntry_shareEntry hpos hroom, View.setShared_setShared_self] at hunref
  refine Runs.bind hunref ?_
  rintro left u ⟨rfl, hu⟩
  have hleft : (shareEntry (w.shared i)).refCount.toNat - 1 ≠ 0 := by
    rw [refCount_shareEntry hroom]
    omega
  rw [if_neg hleft]
  exact .pure hu

/-- Making a pointer lead where it leads, when another reference to the shared block has been taken. -/
theorem runs_redirect_again (h : v.Shows sb r (w.setShared i (shareEntry (w.shared i))) free)
    (hw : w.Sound sb P σ) (hs : w.Active s) (hi : w.Refers s i b)
    (hroom : (w.shared i).refCount.toNat + 1 < 1 <<< 16) :
    Runs sb r (fun _ => True) (redirect ⟨sb.dedupStart, sb.dedupBlocks⟩ s (w.shared i).block) v
      (fun _ u => u.Shows sb r w free) (fun _ _ => ¬ r) := by
  have hlt := hw.active_lt hs
  refine ((runs_readPointer h hlt).mono (fun _ _ hq => hq) fun _ _ he => he.2).bind ?_
  rintro old u ⟨hold, hu⟩
  have hold : old = (w.shared i).block := hold.trans hi.pointer_eq
  subst hold
  have hwrite := runs_writeData (C := fun _ => True) (b := pointerBlock (w.shared i).block) hu hlt trivial
  rw [hi.setData_setShared] at hwrite
  refine (hwrite.mono (fun _ _ hq => hq) fun _ _ he => he.2).bind fun _ x hx => ?_
  rw [if_pos (View.block_ne_zero h.fits hw hi.held)]
  exact runs_dropShared_again hx hw hi.held hroom

theorem runs_storeShared_again (h : v.Shows sb r w free) (hw : w.Sound sb P σ) (hs : w.Active s)
    (hi : w.Refers s i b) (hfree : free ≠ []) (hroom : (w.shared i).refCount.toNat + 1 < 1 <<< 16) :
    Runs sb r (fun _ => True) (storeShared ⟨sb.dedupStart, sb.dedupBlocks⟩ s b) v
      (fun _ u => u.Shows sb r w free) (fun _ _ => ¬ r) := by
  rw [storeShared_eq]
  refine ((runs_acquire h fun _ _ _ => trivial).mono (fun _ _ hq => hq) fun _ _ he hr =>
    hfree (he.2 hr).2).bind ?_
  rintro c u ⟨rest, hcons, hu⟩
  obtain ⟨hc, hclear⟩ := h.mem_free.1 (hcons ▸ List.mem_cons_self)
  have hloose := hw.loose_use hc hclear
  have hfill := (hw.use c).setData hloose b
  have hloose' := hloose.setData b
  refine .get_bind ?_
  rw [hu.superblock]
  refine ((runs_writeData hu hc trivial).mono (fun _ _ hq => hq) fun _ _ he => he.2).bind fun _ x hx => ?_
  have hheld : ((w.setUsed c true).setData c b).Held i := hi.held
  -- The table has the contents, so its own block is returned and not the candidate.
  have hshare := runs_share_known (C := fun _ => True) hx hfill hheld hroom (sb.dataBlock c) trivial
  rw [show (((w.setUsed c true).setData c b).shared i).key = contentHash b.bytes from hi.content] at hshare
  refine (Runs.tryCatch hshare (E := fun _ _ => ¬ r) fun e y he => ?_).bind ?_
  · have hback := (runs_reclaim (A := fun _ _ => True) he.1 hfill hloose' trivial).weaken
      (D := fun _ => True) fun _ _ => trivial
    exact hback.bind fun _ _ _ => .throw he.2
  rintro p y ⟨rfl, hy⟩
  have hne : (((w.setUsed c true).setData c b).shared i).block ≠ sb.dataBlock c := hloose'.not_held hheld
  rw [dismissCandidate, if_pos hne]
  -- So the candidate is given back, and all but the count of the entry is as it was.
  have hback := (runs_reclaim (A := fun _ _ => True) hy (hfill.share hheld hroom) (hloose'.share hheld)
    trivial).weaken (D := fun _ => True) fun _ _ => trivial
  refine hback.bind fun _ z hz => runs_redirect_again ?_ hw hs hi hroom
  have hview := View.reclaimed_setUsed (w := w.setShared i (shareEntry (w.shared i))) (s := c) hclear
    (hw.blank hclear) b
  rw [hcons, ← hview]
  exact hz

section Again

variable (h : v.Shows sb r w free) (hw : w.Sound sb P σ) (hs : w.Active s)

include h hw hs

/-- Storing the value that a slot has. -/
theorem runs_store_again (hb : w.Stored sb s b) (hspare : w.Spare sb free s b) :
    Runs sb r (fun _ => True) (store s b) v (fun _ u => u.Shows sb r w free) (fun _ _ => ¬ r) := by
  refine .get_bind ?_
  rw [h.dedupTable_eq]
  rw [View.Stored] at hb
  cases hd : sb.isDedup with
  | true =>
    rw [if_pos hd] at hb
    obtain ⟨i, hi⟩ := hb
    obtain ⟨hfree, hcount⟩ := hspare hd
    exact runs_storeShared_again h hw hs hi hfree (hcount i hi)
  | false =>
    rw [if_neg (by rw [hd]; decide)] at hb
    have hwrite := runs_writeData (C := fun _ => True) (b := b) h (hw.active_lt hs) trivial
    rw [← hb, View.setData_self] at hwrite
    rw [← hb]
    exact hwrite.mono (fun _ _ hq => hq) fun _ _ he => he.2

/-- The last step of `put` sets the time of the entry. -/
theorem runs_stamp (stored : Timestamp) :
    Runs sb r (fun _ => True)
      (do
        let keys := (← get).keyTable
        onDevice (keys.touch s stored)
        return s) v
      (fun a u => a = s ∧ u.Shows sb r (w.setKey s { w.keys s with timestamp := stored }) free)
      (fun _ _ => ¬ r) := by
  refine .get_bind ?_
  rw [h.keyTable_eq]
  exact ((runs_touch h (hw.active_lt hs) hs stored trivial).mono (fun _ _ hq => hq)
    fun _ _ he => he.2).bind fun _ x hx => .pure ⟨rfl, hx⟩

theorem runs_storeOrDiscard_again (hb : w.Stored sb s b) (hspare : w.Spare sb free s b)
    (stored : Timestamp) :
    Runs sb r (fun _ => True) (storeOrDiscard s false b stored) v
      (fun a u => a = s ∧ u.Shows sb r (w.setKey s { w.keys s with timestamp := stored }) free)
      (fun _ _ => ¬ r) := by
  have hstore := runs_store_again h hw hs hb hspare
  exact (hstore.tryCatch fun _ _ hr => .throw hr).bind fun _ _ hu => runs_stamp hu hw hs stored

/-- Putting the value that a key has under the same key. -/
theorem runs_put_again {data : ByteArray} (hsize : data.size ≤ blockSize)
    (hb : w.Stored sb s (.ofBytes data)) (hspare : w.Spare sb free s (.ofBytes data))
    (created stored : Timestamp) :
    Runs sb r (fun _ => True) (put (w.keys s).key data created stored) v
      (fun a u => a = s ∧ u.Shows sb r (w.setKey s { w.keys s with timestamp := stored }) free)
      (fun _ _ => ¬ r) := by
  have hsome : w.contents sb (w.keys s).key ≠ none := by
    rw [hw.contents_of_active hs]
    exact Option.some_ne_none _
  rw [put_eq, if_neg (Nat.not_lt.2 hsize)]
  refine (((runs_obtain h hw (w.keys s).key created).weaken fun _ _ => trivial).mono (fun _ _ hq => hq)
    fun _ _ he hr => hsome (he.2 hr).2.2.2).bind ?_
  rintro ⟨t, isNew⟩ u (⟨hisNew, ht, hkey, hu⟩ | ⟨-, hnew, -⟩)
  · -- The key is found in its own slot, since no other slot has it.
    obtain rfl : isNew = false := hisNew
    obtain rfl : t = s := hw.unique ht hs hkey
    exact runs_storeOrDiscard_again hu hw hs hb hspare stored
  · exact absurd hnew hsome

end Again

/-! ### What has been stored -/

section Stored

variable (h : v.Shows sb r w free) (hw : w.Sound sb P σ)

include h hw

theorem stored_of_store (hs : w.Active s) (hP : P b) (hrun : store s b v = .ok () u) :
    ∃ w' free' τ, u.Shows sb r w' free' ∧ w'.Sound sb P τ ∧ w'.keys = w.keys ∧ w'.Stored sb s b := by
  obtain ⟨-, w', free', τ, b', hu, hw', -, hkeys, halike, hmap, hsettles⟩ :=
    (runs_store (A := fun _ _ => True) h hw hs hP trivial fun _ _ => trivial).of_ok hrun
  have hs' : w'.Active s := by
    rw [View.Active, hkeys]
    exact hs
  have hvalue : w'.contents sb (w'.keys s).key = some b' := by
    rw [hmap, hkeys]
    exact KeyMap.insert_self _ _ _
  refine ⟨w', free', τ, hu, hw', hkeys, ?_⟩
  rw [View.Stored]
  split
  · rename_i hd
    exact (hsettles hd).exists_refers hd hu.fits hw' hs' halike hvalue
  · rename_i hd
    rw [hw'.contents_of_active hs', View.value_of_plain (Bool.not_eq_true _ ▸ hd)] at hvalue
    rw [Superblock.Alike, if_neg hd] at halike
    exact (Option.some.inj hvalue).trans halike

theorem stored_of_storeOrDiscard (hs : w.Active s) (hP : P b) {isNew : Bool} {stored : Timestamp} {a : Nat}
    (hrun : storeOrDiscard s isNew b stored v = .ok a u) :
    a = s ∧ ∃ w' free', u.Shows sb r w' free' ∧ w'.Active s ∧ (w'.keys s).key = (w.keys s).key ∧
      w'.Stored sb s b := by
  obtain ⟨_, x, hcatch, hrest⟩ := of_bind_eq_ok hrun
  -- The handler always fails in the end.
  have hstore : store s b v = .ok () x := by
    refine of_catch_eq_ok (fun e t a y hok => ?_) hcatch
    cases isNew with
    | false => cases hok
    | true =>
      obtain ⟨_, _, -, hthrow⟩ := of_bind_eq_ok hok
      cases hthrow
  obtain ⟨w', free', τ, hx, hw', hkeys, hb⟩ := stored_of_store h hw hs hP hstore
  have hs' : w'.Active s := by
    rw [View.Active, hkeys]
    exact hs
  obtain ⟨rfl, hu⟩ := (runs_stamp hx hw' hs' stored).of_ok hrest
  refine ⟨rfl, _, free', hu, ?_, ?_, hb.setKey _ _⟩
  · rw [View.Active, View.keys_setKey, if_pos rfl]
    exact hs'
  · rw [View.keys_setKey, if_pos rfl, hkeys]

/-- What a `put` that succeeds leaves: the slot that it returns has the key and the value. -/
theorem stored_of_put {key : Key} {data : ByteArray} (hP : P (.ofBytes data)) {created stored : Timestamp}
    (hput : put key data created stored v = .ok s u) :
    data.size ≤ blockSize ∧ ∃ w' free', u.Shows sb r w' free' ∧ w'.Active s ∧ (w'.keys s).key = key ∧
      w'.Stored sb s (.ofBytes data) := by
  rw [put_eq] at hput
  by_cases hsize : blockSize < data.size
  · rw [if_pos hsize] at hput
    cases hput
  rw [if_neg hsize] at hput
  refine ⟨Nat.le_of_not_lt hsize, ?_⟩
  obtain ⟨⟨t, isNew⟩, x, hobtain, hrest⟩ := of_bind_eq_ok hput
  rcases (runs_obtain h hw key created).of_ok hobtain with ⟨-, ht, hkey, hx⟩ | ⟨-, hnew, rest, hfree, hx⟩
  · obtain ⟨rfl, hu⟩ := stored_of_storeOrDiscard hx hw ht hP hrest
    rw [← hkey]
    exact hu
  · obtain ⟨hlt, hclear⟩ := h.mem_free.1 (hfree ▸ List.mem_cons_self)
    have hw' := hw.created h.fits hlt hclear hnew created
    obtain ⟨rfl, hu⟩ := stored_of_storeOrDiscard hx hw' (View.active_created w t key created) hP hrest
    rw [View.keys_created_self] at hu
    exact hu

end Stored

/-- The state that a `put` leads to. -/
theorem after_put {key : Key} {data : ByteArray} {created stored : Timestamp}
    (hput : put key data created stored v = .ok s u) :
    (Operation.put key data created stored).after v = u := by
  rw [Operation.after, Operation.run, bind_of_ok hput]
  rfl

/-! ### Doing it again -/

/-- What putting the value of a slot again needs of a deduplicating volume: a free slot for the candidate
block, and a reference count below its limit. -/
structure HasRoomAgain (v : Volume) (s : Nat) : Prop where
  free : v.allocator.free ≠ []
  count : ∀ i, v.view.Held i → (v.view.shared i).block = v.view.pointer s →
    (v.view.shared i).refCount.toNat < 65535

/-- Nothing has changed but the time of the entry of one slot. The free list has kept its order, too. -/
structure Restamps (v : Volume) (s : Nat) (stored : Timestamp) (u : Volume) : Prop where
  view : u.view = v.view.setKey s { v.view.keys s with timestamp := stored }
  size : u.device.image.size = v.device.image.size
  byte : ∀ i, ¬ v.superblock.TimeByteOf s i → u.device.image.byte i = v.device.image.byte i
  allocator : u.allocator = v.allocator

theorem Shows.spare (h : v.Shows sb r w free) (hroom : sb.isDedup → v.HasRoomAgain s) :
    w.Spare sb free s b := by
  intro hd
  obtain ⟨hfree, hcount⟩ := hroom hd
  rw [h.free] at hfree
  rw [h.view_eq] at hcount
  exact ⟨hfree, fun i hi => Nat.succ_lt_succ (hcount i hi.held hi.pointer_eq.symm)⟩

/-- Views that differ in one timestamp are those of devices that differ in its bytes. -/
theorem Shows.restamps (h : v.Shows sb r w free) {stored : Timestamp}
    (hu : u.Shows sb r (w.setKey s { w.keys s with timestamp := stored }) free) (hedited : Edited sb v u) :
    v.Restamps s stored u := by
  obtain rfl := h.superblock
  obtain rfl := h.view
  have hmargin := hedited.sameMargin h.seated
  have hview : (v.superblock.view v.device.image).UpToTimes (v.superblock.view u.device.image) := by
    rw [hu.view]
    refine ⟨fun t => ?_, rfl, rfl, rfl⟩
    rw [View.keys_setKey]
    split
    · rename_i ht
      rw [ht]
      rfl
    · rfl
  refine ⟨?_, hmargin.size, fun i hi => hmargin.byte_eq hview fun t _ ht => ?_, ?_⟩
  · rw [Volume.view, hu.superblock, hu.view]
    rfl
  · rw [hu.view, View.keys_setKey, if_neg]
    rintro rfl
    exact hi ht
  · exact h.allocator_eq hu (hmargin.bitmapOf_eq hview.used)

/-- **Repeating a `put` changes only the timestamp.** In every state that comes about without faults, a
value that has just been put can be put again if there is room. The slot is the same, and so are all bytes
of the device but those of the timestamp of its entry, and the free list. -/
theorem put_again {l : Layout} (h : Faultless l v) {key : Key} {data : ByteArray}
    {created stored : Timestamp} (hput : put key data created stored v = .ok s u)
    (hroom : l.dedup → u.HasRoomAgain s) (created' stored' : Timestamp) :
    ∃ u', put key data created' stored' u = .ok s u' ∧ u.Restamps s stored' u' := by
  obtain ⟨w, free, hv, hw⟩ := h.exact
  obtain ⟨hsize, w', free', hu, hs, rfl, hb⟩ := stored_of_put hv hw.sound trivial hput
  obtain ⟨w'', free'', hu', hw'⟩ := after_put hput ▸ (h.run (.put _ data created stored)).exact
  obtain rfl : w'' = w' := hu'.view.symm.trans hu.view
  have hspare := hu.spare (b := .ofBytes data) fun hd => hroom (l.isDedup_superblock ▸ hd)
  rcases (runs_put_again hu hw'.sound hs hsize hb hspare created' stored').result with
    ⟨a, x, hagain, -, rfl, hx⟩ | ⟨-, -, -, -, hfault⟩
  · have hedited := hu.seated.edited_after (.put (w''.keys a).key data created' stored')
    rw [after_put hagain] at hedited
    exact ⟨x, hagain, hu.restamps hx hedited⟩
  · exact absurd trivial hfault

/-- On a deduplicating volume with four slots a value is put twice in a row. -/
theorem put_again_four_slots :
    ∃ v d' s u, format ⟨4, true, by decide, by decide⟩
        (.ofImage (.blank (Layout.totalSize 4 true))) = .ok v d' ∧
      put .zero (zeros 5) ⟨0⟩ ⟨0⟩ v = .ok s u ∧ u.HasRoomAgain s ∧
      ∃ u', put .zero (zeros 5) ⟨1⟩ ⟨2⟩ u = .ok s u' ∧ u.Restamps s ⟨2⟩ u' := by
  obtain ⟨l, hl⟩ : ∃ l : Layout, l = ⟨4, true, by decide, by decide⟩ := ⟨_, rfl⟩
  have hd : l.superblock.isDedup = true := by rw [l.isDedup_superblock, hl]
  obtain ⟨v, hv, hshows⟩ := exists_format_blank l
  have hfaultless := Faultless.format (Device.reliable_ofImage _) hv
  have hsound := View.sound_blank l.superblock (fun _ => True) fun _ => 0
  rcases (runs_put hshows hsound .zero (zeros 5) (fun _ => trivial) ⟨0⟩ ⟨0⟩).result with
    ⟨s, u, hput, -, -, -, w, free, τ, b, hu, -, -, -, hmap, hbare⟩ | ⟨e, u, -, -, herror⟩
  · obtain ⟨w', free', hu', hw⟩ := after_put hput ▸ (hfaultless.run (.put .zero (zeros 5) ⟨0⟩ ⟨0⟩)).exact
    obtain rfl : w' = w := hu'.view.symm.trans hu.view
    have hgiven : l.superblock.isDedup → ∀ t, ¬ w'.Bare t := fun _ t ht =>
      absurd (hbare hd ht).1 (show ¬ KeyEntry.free.isActive by decide)
    -- One key and one value take two of the slots.
    obtain ⟨n, hn, hcount⟩ := hu.exists_occupies hw hgiven
    have htwo : (w'.contents l.superblock).Occupies l.superblock.isDedup 2 := by
      rw [hmap, View.contents_blank, hd]
      refine ⟨[.zero], List.nodup_singleton _, fun key => ?_, ?_⟩
      · simp [KeyMap.insert]
      · simp [KeyMap.insert]
    rw [hn.unique htwo, hu.freeCount_eq, l.slots_superblock, hl] at hcount
    have hroom : u.HasRoomAgain s := by
      refine ⟨?_, fun i hi _ => ?_⟩
      · rw [hu.free, ← List.length_pos_iff, hcount]
        decide
      · rw [hu.view_eq] at hi ⊢
        refine Nat.lt_of_le_of_lt (hw.refCount_le hi) ?_
        rw [l.slots_superblock, hl]
        decide
    rw [hl] at hv
    exact ⟨v, _, s, u, hv, hput, hroom, put_again hfaultless hput (fun _ => hroom) ⟨1⟩ ⟨2⟩⟩
  · obtain ⟨-, ⟨hsize, -⟩ | ⟨-, hfull, -⟩ | ⟨-, -, -, ⟨i, hi, -⟩ | ⟨-, hless⟩⟩⟩ := herror trivial
    · exact absurd hsize (by decide)
    · rw [View.contents_blank, List.length_range, hd, hl] at hfull
      exact absurd hfull (by decide)
    · exact absurd hi (show ¬ DedupEntry.free.isActive by decide)
    · exact absurd (l.slots_le_dedupCapacity (by rw [hl])) (Nat.not_le.2 hless)

end Volume

end BlockStore
