import BlockStore.Proofs.Consistency
import BlockStore.Proofs.Custody
import BlockStore.Proofs.Refinement

/-!
# The free list

The free list starts out as the slots whose bit is clear, and from then on the operations keep it. An
operation puts a slot on it after it has made sure that the slot belongs to nobody; it does not look at
the bit. So the list has no slot twice as long as every slot that belongs to somebody has its bit set,
and no slot belongs to two. That is all that has to hold of an image for this: what its pointers and
reference counts say, and whether the device fails, does not matter.

It does have to hold. A key whose bit is clear is in a slot that is on the free list already, and
deleting the key puts it there once more.

## Main definitions

* `Call.afterAll`: the volume after a sequence of calls.
* `Volume.Accounted`: the free list has no slot twice, and none in use.

## Main results

* `Volume.passes_call`, `passes_calls`: no call gives a slot a second owner.
* `Volume.accounted_after_calls`: what the free list is after any calls on an image that was mounted.
* `Volume.remove_unmarked`: what deleting a key does whose bit is clear.
-/

namespace BlockStore

namespace Call

/-- The volume after it has answered the calls, one after the other. -/
def afterAll (calls : List Call) (v : Volume) : Volume := calls.foldl (fun v c => c.after v) v

theorem afterAll_cons (c : Call) (calls : List Call) (v : Volume) :
    afterAll (c :: calls) v = afterAll calls (c.after v) := rfl

end Call

namespace Volume

variable {sb : Superblock} {r strict : Prop} {v u : Volume} {w : View} {free : List Nat} {s : Nat}

/-- The free list has no slot twice, and only slots of the volume whose bit is clear, in memory and on
the device. So the number of slots in use is the difference that it should be. -/
structure Accounted (v : Volume) : Prop where
  nodup : v.allocator.free.Nodup
  lt : ∀ s ∈ v.allocator.free, s < v.superblock.slots
  clear : ∀ s ∈ v.allocator.free,
    v.allocator.isUsed s = false ∧ testSlot (v.superblock.bitmapOf v.device.image) s = false
  freeCount_le : v.freeCount ≤ v.superblock.slots
  statfs : ∀ stats, v.statfs = .ok stats →
    stats.freeBlocks ≤ stats.blockCount ∧
      stats.usedBlocks.toNat = stats.blockCount - stats.freeBlocks

/-! ### Calls -/

/-- Every write of a call leaves a view where no slot has two owners. -/
theorem owned_call (h : v.Shows sb r w free) (hw : w.Owned sb strict) (c : Call) :
    Runs sb r (View.Owned sb strict) c.run v (fun _ _ => True) (fun _ _ => True) := by
  have hdone {α : Type} {act : VolumeM α} {Q : α → Volume → Prop} {E : StoreError → Volume → Prop}
      (hact : Runs sb r (View.Owned sb strict) act v Q E) :
      Runs sb r (View.Owned sb strict)
        (do
          let _ ← act
          return Reply.done) v (fun _ _ => True) (fun _ _ => True) :=
    (hact.mono (fun _ _ hq => hq) fun _ _ _ => trivial).bind fun _ _ _ => .pure trivial
  have hquery (f : Volume → Except StoreError Reply) :
      Runs sb r (View.Owned sb strict) (query f) v (fun _ _ => True) (fun _ _ => True) := by
    unfold Runs query
    cases f v <;> exact ⟨.refl, trivial⟩
  cases c with
  | create key now => exact hdone (owned_create h hw key now)
  | put key data created stored => exact hdone (owned_put h hw key data created stored)
  | remove key => exact hdone (owned_remove h hw key)
  | rename old new => exact hdone (owned_rename h hw old new)
  | get key => exact hquery _
  | contains key => exact hquery _
  | list => exact hquery _

/-- No call gives a slot a second owner. -/
theorem passes_call (h : Passes sb r (View.Owned sb strict) v) (c : Call) :
    Passes sb r (View.Owned sb strict) (c.after v) := by
  obtain ⟨w, free, hv, hw⟩ := h
  rw [Call.after]
  rcases (owned_call hv hw c).result with ⟨a, u, hrun, htrail, -⟩ | ⟨e, u, hrun, htrail, -⟩ <;>
    · rw [hrun]
      exact htrail.passes (hv.passes hw)

theorem passes_calls (h : Passes sb r (View.Owned sb strict) v) (calls : List Call) :
    Passes sb r (View.Owned sb strict) (Call.afterAll calls v) := by
  induction calls generalizing v with
  | nil => exact h
  | cons c calls ih =>
    rw [Call.afterAll_cons]
    exact ih (passes_call h c)

/-! ### The free list -/

theorem statfs_eq_ok {stats : VolumeStats} (h : v.statfs = .ok stats) :
    stats.blockCount = v.superblock.slots ∧ stats.freeBlocks = v.freeCount ∧
      stats.usedBlocks = UInt64.ofNat v.superblock.slots - UInt64.ofNat v.freeCount := by
  rw [Volume.statfs] at h
  cases hkeys : collect v.entries with
  | error e => simp [hkeys, bind, Except.bind] at h
  | ok keys =>
    cases htable : v.dedupTable with
    | none =>
      simp only [hkeys, htable, bind, Except.bind, pure, Except.pure, Except.ok.injEq] at h
      subst h
      exact ⟨rfl, rfl, rfl⟩
    | some table =>
      cases hstats : table.stats v.device with
      | error e => simp [hkeys, htable, hstats, bind, Except.bind] at h
      | ok dedup =>
        simp only [hkeys, htable, hstats, bind, Except.bind, pure, Except.pure, Except.ok.injEq] at h
        subst h
        exact ⟨rfl, rfl, rfl⟩

/-- Distinct slots of a volume are no more than there are. -/
theorem Shows.length_free_le (h : v.Shows sb r w free) : free.length ≤ sb.slots := by
  have hsub : free ⊆ List.range sb.slots := fun s hs => List.mem_range.2 (h.mem_free.1 hs).1
  have hlen := h.nodup.length_le_of_subset hsub
  rwa [List.length_range] at hlen

theorem Shows.accounted (h : v.Shows sb r w free) : v.Accounted := by
  have hle : v.freeCount ≤ v.superblock.slots := by
    rw [h.freeCount_eq, h.superblock]
    exact h.length_free_le
  refine ⟨h.free ▸ h.nodup, fun s hs => ?_, fun s hs => ?_, hle, fun stats hstats => ?_⟩
  · rw [h.free] at hs
    rw [h.superblock]
    exact (h.mem_free.1 hs).1
  · rw [h.free] at hs
    obtain ⟨hlt, hclear⟩ := h.mem_free.1 hs
    rw [h.isUsed_eq, h.superblock, h.testSlot_eq hlt]
    exact ⟨hclear, hclear⟩
  · obtain ⟨hcount, hfree, hused⟩ := statfs_eq_ok hstats
    have hslots : v.superblock.slots < 2 ^ 64 := by
      have := h.superblock ▸ h.fits.slots_le
      simp only [Superblock.maxBlocks] at this
      omega
    rw [hcount, hfree, hused]
    refine ⟨hle, ?_⟩
    rw [UInt64.toNat_sub_of_le, UInt64.toNat_ofNat_of_lt' hslots,
      UInt64.toNat_ofNat_of_lt' (Nat.lt_of_le_of_lt hle hslots)]
    rw [UInt64.le_iff_toNat_le, UInt64.toNat_ofNat_of_lt' hslots,
      UInt64.toNat_ofNat_of_lt' (Nat.lt_of_le_of_lt hle hslots)]
    exact hle

/-- A slot that is released goes on the free list, whatever its bit says. -/
theorem Shows.release_eq (h : v.Shows sb r w free) (hr : r) (hs : s < sb.slots) :
    ∃ u, release s v = .ok () u ∧ u.allocator.free = s :: free := by
  rcases h.assign_eq hs false with hok | ⟨-, hr'⟩
  · rw [Volume.release_eq, changeAllocator_apply]
    simp only [Allocator.giveBack, bind, EStateM.bind, hok, h.free]
    exact ⟨_, rfl, rfl⟩
  · exact absurd hr hr'

theorem Shows.discardSlot_eq (h : v.Shows sb r w free) (hr : r) (hs : s < sb.slots) :
    ∃ u, discardSlot s v = .ok () u ∧ u.allocator.free = s :: free := by
  rcases (runs_writeKey (C := fun _ => True) (e := .free) h hs trivial).result with
    ⟨_, x, hkey, -, hx⟩ | ⟨-, -, -, -, -, hr'⟩
  · rcases (runs_writeData (C := fun _ => True) (b := .zero) hx hs trivial).result with
      ⟨_, y, hdata, -, hy⟩ | ⟨-, -, -, -, -, hr'⟩
    · obtain ⟨u, hrelease, hu⟩ := hy.release_eq hr hs
      refine ⟨u, ?_, hu⟩
      change EStateM.bind (onDevice (KeyTable.writeEntry v.keyTable s .free)) (fun _ => reclaim s) v = _
      rw [h.keyTable_eq]
      simp only [EStateM.bind, hkey]
      change EStateM.bind (writeData s .zero) (fun _ => release s) x = _
      simp only [EStateM.bind, hdata, hrelease]
    · exact absurd hr hr'
  · exact absurd hr hr'

/-- Deleting a key whose bit is clear puts its slot on the free list, where it is already. -/
theorem remove_unmarked {key : Key} (h : v.Shows sb r w free) (hr : r) (hd : sb.isDedup = false)
    (hslot : w.slotOf sb key = some s) (hclear : w.used s = false) :
    ∃ u, remove key v = .ok () u ∧ u.allocator.free = s :: free ∧ s ∈ free := by
  obtain ⟨hs, -⟩ := View.slotOf_eq_some hslot
  rcases (runs_lookup (C := fun _ => True) h key).result with ⟨t, x, hlookup, -, hx⟩ | ⟨e, x, -, -, hx⟩
  · obtain ⟨ht, hx⟩ := hx
    obtain rfl : s = t := Option.some.inj (hslot.symm.trans ht)
    obtain ⟨u, hdiscard, hu⟩ := hx.discardSlot_eq hr hs
    refine ⟨u, ?_, hu, h.mem_free.2 ⟨hs, hclear⟩⟩
    have htable : x.dedupTable = none := by
      rw [hx.dedupTable_eq, hd]
      rfl
    rw [remove, bind_of_ok hlookup, get_bind_apply, htable]
    exact hdiscard
  · rcases hx.2 with ⟨-, hnone⟩ | hr'
    · rw [hslot] at hnone
      cases hnone
    · exact absurd hr hr'

/-- Of a plain volume with two slots the first has a key and its bit is clear. -/
theorem remove_unmarked_two_slots :
    ∃ d v d' u, mount false d = .ok v d' ∧ remove .zero v = .ok () u ∧ ¬ u.Accounted := by
  obtain ⟨l, hl⟩ : ∃ l : Layout, l = ⟨2, false, by decide, by decide⟩ := ⟨_, rfl⟩
  have hs : 0 < l.superblock.slots := by
    rw [l.slots_superblock, hl]
    decide
  have hd : l.superblock.isDedup = false := by rw [l.isDedup_superblock, hl]
  have hr := Device.reliable_ofImage (.blank l.size)
  rcases format_cases l (.ofImage (.blank l.size)) with ⟨v, -, hv⟩ | ⟨-, hfail⟩
  · rcases (runs_writeKey (C := fun _ => True) (e := .active .zero ⟨0⟩) hv hs trivial).result with
      ⟨_, x, -, -, hx⟩ | ⟨-, -, -, -, -, hr'⟩
    · obtain ⟨hstored, hfits⟩ := Superblock.of_read (hx.read_eq hr)
      rcases attach_cases hstored hfits with ⟨y, hattach, -, hy⟩ | ⟨-, hr'⟩
      · rw [hx.view] at hy
        have hslot : (View.blank.setKey 0 (.active .zero ⟨0⟩)).slotOf l.superblock .zero = some 0 := by
          rw [View.slotOf, List.find?_range_eq_some]
          exact ⟨by decide, List.mem_range.2 hs, fun t ht => absurd ht (Nat.not_lt_zero t)⟩
        obtain ⟨u, hremove, hfree, hmem⟩ := remove_unmarked hy (hx.reliable.2 hr) hd hslot rfl
        refine ⟨x.device, y, x.device, u, by simp [mount, mountVisiting, hattach], hremove, fun h => ?_⟩
        have hnodup := h.nodup
        rw [hfree, List.nodup_cons] at hnodup
        exact hnodup.1 hmem
      · exact absurd (hx.reliable.2 hr) hr'
    · exact absurd hr hr'
  · exact absurd ⟨hr, Nat.le_refl _⟩ hfail

end Volume

end BlockStore
