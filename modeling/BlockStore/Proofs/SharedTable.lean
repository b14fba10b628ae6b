import BlockStore.Proofs.Consistency
import BlockStore.Proofs.FreeList
import BlockStore.Proofs.Reachable

/-!
# The dedup table after a repair

Whatever an image holds, the dedup entries that a repair leaves count exactly the pointers to their
blocks, as long as a count can hold that many. The block of an entry that counts something belongs to a
slot that is in use and has no key, and no block and no content is in two entries.

An entry may count nothing, though: a repair compares the count in an entry with the number of pointers,
and if both are zero it leaves the entry as it is. The block of such an entry is free. This is the only
way in which the table can be unsound, so if it does not occur then no value is ever stored in a free
block.

## Main definitions

* `Volume.Settled`: what a repair makes of a dedup table.

## Main results

* `View.Within.owned_repaired`: if every entry counts something, every slot has one owner.
* `Volume.settled_of_repair`: the table after a repair, and the values that are stored from then on.
* `Volume.uncounted_of_repair`: the entry that a repair overlooks.
-/

namespace BlockStore

namespace View

variable {w : View} {sb : Superblock} {length : Nat} {visit : List SharedBlock → List SharedBlock}
  {b : SharedBlock}

theorem logicalRefs_le (w : View) (sb : Superblock) (n : Nat) : w.logicalRefs sb n ≤ sb.slots := by
  have hlength : (w.logical sb).length ≤ sb.slots := by
    rw [logical, slotsWhere_eq]
    exact Nat.le_trans (List.length_filter_le _ _) (Nat.le_of_eq List.length_range)
  exact Nat.le_trans List.countP_le_length hlength

/-- An entry that stays counts the pointers to its block. -/
theorem Within.refCount_repaired (hw : w.Within sb) (hfits : sb.Fits length)
    (hvisit : ∀ l, (visit l).Perm l) (hb : b ∈ w.accepted sb) (hstay : w.Stays sb b)
    (hle : w.logicalRefs sb b.block ≤ 65535) :
    ((w.repaired sb visit).shared b.index).refCount.toNat = (w.repaired sb visit).refs sb b.block := by
  have hfirst {s : Nat} (hs : (w.repaired sb visit).Active s) : (w.repaired sb visit).First s :=
    hw.first_repaired.2 (hw.active_repaired.1 hs)
  calc ((w.repaired sb visit).shared b.index).refCount.toNat
      = w.actual sb b.block := (entry_repaired hvisit hb hstay).2.2.2
    _ = w.logicalRefs sb b.block := by rw [actual_eq hfits hb, Nat.min_eq_left hle]
    _ = (w.repaired sb visit).logicalRefs sb b.block := (hw.logicalRefs_repaired hfits hb).symm
    _ = (w.repaired sb visit).refs sb b.block := logicalRefs_eq hfirst _

/-- The slot of an accepted block is in use after a repair if there are pointers to the block. -/
theorem used_repaired_slot (hfits : sb.Fits length) (hb : b ∈ w.accepted sb) :
    (w.repaired sb visit).used b.slot ↔ w.actual sb b.block ≠ 0 := by
  have hclaims := claims_of_mem hb
  rw [used_repaired, if_pos hclaims.slot_lt, decide_eq_true_eq, referenced, List.mem_append,
    or_iff_right hclaims.not_logical, mem_kept hfits, actual_ne_zero_iff hfits hb]
  constructor
  · rintro ⟨a, ha, hslot, hpointer⟩
    rwa [(claims_of_mem ha).block_of, hslot, ← hclaims.block_of] at hpointer
  · exact fun hpointer => ⟨b, hb, rfl, hpointer⟩

/-- If every entry counts something after a repair, then every slot has one owner. -/
theorem Within.owned_repaired (hw : w.Within sb) (hfits : sb.Fits length)
    (hvisit : ∀ l, (visit l).Perm l)
    (hcount : ∀ i, (w.repaired sb visit).Held i →
      ((w.repaired sb visit).shared i).refCount.toNat ≠ 0) :
    (w.repaired sb visit).Owned sb True where
  active_lt hs := (mem_logical.1 (hw.active_repaired.1 hs)).1
  held_lt hi := by
    obtain ⟨b, hb, rfl, -⟩ := (hw.held_repaired hvisit).1 hi
    exact (claims_of_mem hb).index_lt
  used_of_active {s} hs := by
    have hlogical := hw.active_repaired.1 hs
    rw [used_repaired, if_pos (mem_logical.1 hlogical).1, decide_eq_true_eq]
    exact List.mem_append_left _ hlogical
  owner {i s} hi _ hblock := by
    obtain ⟨b, hb, rfl, hstay⟩ := (hw.held_repaired hvisit).1 hi
    obtain ⟨-, hsame, -, hrefs⟩ := entry_repaired hvisit hb hstay
    have hclaims := claims_of_mem hb
    obtain rfl : b.slot = s :=
      Superblock.dataBlock_inj (hclaims.block_of.symm.trans (hsame.symm.trans hblock))
    refine ⟨(used_repaired_slot hfits hb).2 fun hzero => ?_, fun hactive => ?_⟩
    · exact hcount _ hi (hrefs.trans hzero)
    · exact hclaims.not_logical (hw.active_repaired.1 hactive)
  block_inj hi hj _ hblock hblock' :=
    (hw.shareable_repaired hvisit).block_inj hi hj (hblock.trans hblock'.symm)
  counted {i} _ hi := by
    obtain ⟨s, hs, hblock, -⟩ := (hw.shareable_repaired hvisit).home hi
    exact ⟨Nat.one_le_iff_ne_zero.2 (hcount i hi), s, hs, hblock⟩

theorem not_active_blank_setShared (i : Nat) (e : DedupEntry) (s : Nat) :
    ¬ (blank.setShared i e).Active s := Bool.eq_false_iff.1 isActive_free

/-- A view with nothing but one dedup entry. -/
theorem shareable_blank_setShared (i : Nat) {e : DedupEntry} {s : Nat} (hs : s < sb.slots)
    (hblock : e.block = sb.dataBlock s) : (blank.setShared i e).Shareable sb := by
  have hheld {j : Nat} (hj : (blank.setShared i e).Held j) : j = i := by
    rw [held_setShared] at hj
    split at hj
    · assumption
    · exact absurd hj (Bool.eq_false_iff.1 not_held_free)
  refine ⟨fun {j} hj => ?_, fun hj hk _ => (hheld hj).trans (hheld hk).symm,
    fun hj hk _ => (hheld hj).trans (hheld hk).symm⟩
  rw [hheld hj, shared_setShared, if_pos rfl]
  exact ⟨s, hs, hblock, fun hmem => not_active_blank_setShared i e s (mem_logical.1 hmem).2.1⟩

end View

namespace Volume

variable {sb : Superblock} {r : Prop} {v u x : Volume} {w : View} {free : List Nat} {d d' : Device}
  {visit : List SharedBlock → List SharedBlock}

/-- What a repair makes of the dedup table of an image with the view `w`. -/
structure Settled (u : Volume) (w : View) : Prop where
  /-- A block belongs to a slot without a key, which is in use if the entry counts something. -/
  home : ∀ i, u.view.Held i → ∃ s < u.superblock.slots,
    (u.view.shared i).block = u.superblock.dataBlock s ∧ ¬ u.view.Active s ∧
      (u.InUse s ↔ 1 ≤ (u.view.shared i).refCount.toNat)
  /-- An entry counts the pointers to its block. -/
  counted : ∀ i, u.view.Held i →
    (u.view.shared i).refCount.toNat = u.view.refs u.superblock (u.view.shared i).block
  /-- An entry that counts nothing is one that counted nothing before. -/
  counts_zero : ∀ i, u.view.Held i → (u.view.shared i).refCount.toNat = 0 →
    w.Held i ∧ (w.shared i).refCount.toNat = 0
  /-- No block is shared twice. -/
  block_inj : ∀ i j, u.view.Held i → u.view.Held j →
    (u.view.shared i).block = (u.view.shared j).block → i = j
  /-- No content is shared twice. -/
  content_inj : ∀ i j, u.view.Held i → u.view.Held j →
    (u.view.shared i).key = (u.view.shared j).key → i = j

theorem Shows.settled (h : u.Shows sb r (w.repaired sb visit) free) (hw : w.Within sb)
    (hvisit : ∀ l, (visit l).Perm l)
    (hrefs : ∀ s < sb.slots, w.logicalRefs sb (sb.dataBlock s) ≤ 65535) : u.Settled w := by
  have hshareable := hw.shareable_repaired hvisit
  refine ⟨fun i hi => ?_, fun i hi => ?_, fun i hi hzero => ?_, fun i j hi hj => ?_,
    fun i j hi hj => ?_⟩
  all_goals rw [h.view_eq] at *
  · obtain ⟨b, hb, rfl, hstay⟩ := (hw.held_repaired hvisit).1 hi
    obtain ⟨-, hblock, -, hcount⟩ := View.entry_repaired hvisit hb hstay
    have hclaims := View.claims_of_mem hb
    rw [h.superblock, hblock, hcount]
    refine ⟨b.slot, hclaims.slot_lt, hclaims.block_of, fun hactive => ?_, ?_⟩
    · exact hclaims.not_logical (hw.active_repaired.1 hactive)
    · rw [h.inUse_iff, View.used_repaired_slot h.fits hb, and_iff_right hclaims.slot_lt,
        Nat.one_le_iff_ne_zero]
  · obtain ⟨b, hb, rfl, hstay⟩ := (hw.held_repaired hvisit).1 hi
    have hclaims := View.claims_of_mem hb
    rw [(View.entry_repaired hvisit hb hstay).2.1, h.superblock]
    refine hw.refCount_repaired h.fits hvisit hb hstay ?_
    rw [hclaims.block_of]
    exact hrefs _ hclaims.slot_lt
  · obtain ⟨b, hb, rfl, hstay⟩ := (hw.held_repaired hvisit).1 hi
    have hclaims := View.claims_of_mem hb
    have hactual := (View.entry_repaired hvisit hb hstay).2.2.2.symm.trans hzero
    refine ⟨hclaims.held, ?_⟩
    rw [hclaims.recorded_eq, ← hstay.resolve_right (not_not_intro hactual), hactual]
  · exact hshareable.block_inj hi hj
  · exact hshareable.content_inj hi hj

/-- Contents that the dedup table has already are not stored in a free block. -/
theorem put_reaches (h : Passes sb r (View.Owned sb True) v) {key : Key} {data : ByteArray}
    {created stored : Timestamp} {s : Nat} (hput : put key data created stored v = .ok s x)
    (hknows : v.view.Knows (contentHash (Block.ofBytes data).bytes)) :
    x.view.Holds key s ∧ ∃ t, x.view.pointer s = x.superblock.dataBlock t ∧ x.InUse t := by
  obtain ⟨w, free, hv, hw⟩ := h
  rw [hv.view_eq] at hknows
  have hd : sb.isDedup := by
    obtain ⟨i, hi, -⟩ := hknows
    have hlt := hw.held_lt hi
    cases hd : sb.isDedup with
    | true => rfl
    | false =>
      rw [Superblock.dedupCapacity, Superblock.dedupBlocks, if_neg (by rw [hd]; decide)] at hlt
      omega
  obtain ⟨⟨w', free', hx, hholds, -, hreach⟩, w'', free'', hx', hw''⟩ :=
    ((owned_put hv hw key data created stored).passes (hv.passes hw)).of_ok hput
  obtain rfl : w'' = w' := hx'.view.symm.trans hx.view
  obtain ⟨i, hi, hblock⟩ := hreach hd trivial hknows
  obtain ⟨-, t, ht, hslot⟩ := hw''.counted trivial hi
  rw [hx.view_eq]
  refine ⟨hholds, t, ?_, hx.inUse_iff.2 ⟨ht, (hw''.owner hi ht hslot).1⟩⟩
  rw [hx.superblock, ← hblock, hslot]

/-- **A repair settles the dedup table.** After an image has been mounted with repair, every dedup entry
counts the pointers to its block, which belongs to a slot without a key, and to no other entry. The slot
is in use if the entry counts something. If all of them do, then whatever is called next: a value that
is stored and whose contents the table has already is stored in a block that is in use. -/
theorem settled_of_repair (hread : Superblock.read d = .ok sb) (hvisit : ∀ l, (visit l).Perm l)
    (h : mountVisiting visit true d = .ok u d')
    (hrefs : ∀ s < sb.slots, (sb.view d.image).logicalRefs sb (sb.dataBlock s) ≤ 65535) :
    u.Settled (sb.view d.image) ∧
      ((∀ i, u.view.Held i → (u.view.shared i).refCount.toNat ≠ 0) →
        ∀ (calls : List Call) (key : Key) (data : ByteArray) (created stored : Timestamp) (s : Nat)
          (x : Volume), put key data created stored (Call.afterAll calls u) = .ok s x →
          (Call.afterAll calls u).view.Knows (contentHash (Block.ofBytes data).bytes) →
          x.view.Holds key s ∧ ∃ t, x.view.pointer s = x.superblock.dataBlock t ∧ x.InUse t) := by
  obtain ⟨hstored, hfits⟩ := Superblock.of_read hread
  have hw := View.within_view sb d.image
  obtain ⟨free, hu⟩ := shows_of_mountVisiting h hstored hfits hvisit
  simp only [if_true] at hu
  refine ⟨hu.settled hw hvisit hrefs, fun hcount calls key data created stored s x hput hknows => ?_⟩
  rw [hu.view_eq] at hcount
  exact put_reaches (passes_calls (hu.passes (hw.owned_repaired hfits hvisit hcount)) calls) hput hknows

/-- A value is stored on a deduplicating volume with four slots, and once more, under any key, after the
volume was mounted with repair. -/
theorem settled_four_slots :
    ∃ v d' u d'', format ⟨4, true, by decide, by decide⟩
        (.ofImage (.blank (Layout.totalSize 4 true))) = .ok v d' ∧
      mountVisiting List.reverse true
        ((Operation.put .zero (zeros 5) ⟨0⟩ ⟨0⟩).after v).device = .ok u d'' ∧
      u.Settled ((Operation.put .zero (zeros 5) ⟨0⟩ ⟨0⟩).after v).view ∧
      ∀ key s x, put key (zeros 5) ⟨0⟩ ⟨0⟩ u = .ok s x →
        u.view.Knows (contentHash (Block.ofBytes (zeros 5)).bytes) →
        x.view.Holds key s ∧ ∃ t, x.view.pointer s = x.superblock.dataBlock t ∧ x.InUse t := by
  have hd := Device.reliable_ofImage (.blank (Layout.totalSize 4 true))
  rcases format_cases ⟨4, true, by decide, by decide⟩ (.ofImage (.blank (Layout.totalSize 4 true))) with
    ⟨v, hv, hshows⟩ | ⟨-, hfail⟩
  · obtain ⟨w, free, hx, τ, hw⟩ := passes_after_blank hshows (.put .zero (zeros 5) ⟨0⟩ ⟨0⟩)
    obtain ⟨hstored, hfits⟩ := Superblock.of_read (hx.read_eq hd)
    obtain ⟨u, d'', hmount⟩ :=
      exists_mountVisiting (hx.reliable.2 hd) hstored hfits List.reverse_perm true
    obtain ⟨hsettled, hstores⟩ := settled_of_repair (hx.read_eq hd) List.reverse_perm hmount
      fun s _ => Nat.le_trans (View.logicalRefs_le _ _ _) (by decide)
    rw [hx.view] at hsettled
    refine ⟨v, _, u, d'', hv, hmount, hx.view_eq ▸ hsettled, fun key s x => ?_⟩
    refine hstores (fun i hi hzero => ?_) [] key (zeros 5) ⟨0⟩ ⟨0⟩ s x
    obtain ⟨hheld, hcount⟩ := hsettled.counts_zero i hi hzero
    have hpos := (hw.counted hheld).1
    omega
  · exact absurd ⟨hd, Nat.le_refl _⟩ hfail

/-- An entry that counts nothing, and whose block has no pointer to it, stays, and its block is free. -/
theorem uncounted_of_repair (hread : Superblock.read d = .ok sb) (hvisit : ∀ l, (visit l).Perm l)
    (h : mountVisiting visit true d = .ok u d') {b : SharedBlock}
    (hb : b ∈ (sb.view d.image).accepted sb) (hzero : b.recorded = 0)
    (hrefs : (sb.view d.image).logicalRefs sb b.block = 0) :
    u.view.Held b.index ∧ (u.view.shared b.index).refCount.toNat = 0 ∧
      (u.view.shared b.index).block = sb.dataBlock b.slot ∧ b.slot ∈ u.allocator.free := by
  obtain ⟨hstored, hfits⟩ := Superblock.of_read hread
  obtain ⟨free, hu⟩ := shows_of_mountVisiting h hstored hfits hvisit
  simp only [if_true] at hu
  have hclaims := View.claims_of_mem hb
  have hactual : (sb.view d.image).actual sb b.block = 0 := by
    rw [View.actual_eq hfits hb, hrefs, Nat.zero_min]
  have hstay : (sb.view d.image).Stays sb b := .inl (hactual.trans hzero.symm)
  obtain ⟨hheld, hblock, -, hcount⟩ := View.entry_repaired hvisit hb hstay
  rw [hu.view_eq, hu.free, hu.mem_free]
  refine ⟨hheld, hcount.trans hactual, hblock.trans hclaims.block_of, hclaims.slot_lt, ?_⟩
  rw [Bool.eq_false_iff]
  exact fun hused => (View.used_repaired_slot hfits hb).1 hused hactual

/-- Of a deduplicating volume with two slots, which has no keys, the block of the last slot has an entry
that counts nothing. -/
theorem uncounted_two_slots :
    ∃ d u d' i s, mountVisiting List.reverse true d = .ok u d' ∧ u.view.Held i ∧
      (u.view.shared i).refCount.toNat = 0 ∧
      (u.view.shared i).block =
        (Layout.superblock ⟨2, true, by decide, by decide⟩).dataBlock s ∧ s ∈ u.allocator.free := by
  obtain ⟨l, hl⟩ : ∃ l : Layout, l = ⟨2, true, by decide, by decide⟩ := ⟨_, rfl⟩
  rw [← hl]
  have hslots : l.superblock.slots = 2 := by rw [l.slots_superblock, hl]
  have hr := Device.reliable_ofImage (.blank l.size)
  rcases format_cases l (.ofImage (.blank l.size)) with ⟨v, -, hv⟩ | ⟨-, hfail⟩
  · have hcapacity : 0 < l.superblock.dedupCapacity := by
      have := l.slots_le_dedupCapacity (by rw [hl])
      omega
    obtain ⟨e, he⟩ : ∃ e, e = { newEntry .zero (l.superblock.dataBlock 1) with refCount := 0 } := ⟨_, rfl⟩
    have hactive : e.isActive := by
      rw [he]
      exact isActive_newEntry .zero (l.superblock.dataBlock 1)
    have hblock : e.block = l.superblock.dataBlock 1 := by
      have hend := hv.fits.data_le.2
      rw [he]
      refine block_newEntry .zero ?_
      simp only [Superblock.dataBlock, blockSize, hslots] at *
      omega
    rcases (runs_writeShared (C := fun _ => True) (e := e) hv hcapacity trivial).result with
      ⟨_, x, -, -, hx⟩ | ⟨-, -, -, -, -, hr'⟩
    · obtain ⟨hstored, hfits⟩ := Superblock.of_read (hx.read_eq hr)
      obtain ⟨u, d', hmount⟩ :=
        exists_mountVisiting (hx.reliable.2 hr) hstored hfits List.reverse_perm true
      have hshareable : (View.blank.setShared 0 e).Shareable l.superblock :=
        View.shareable_blank_setShared 0 (by rw [hslots]; decide) hblock
      obtain ⟨b, hb, hindex⟩ := hshareable.exists_accepted (i := 0) hcapacity hactive
      have hrecorded := (View.claims_of_mem hb).recorded_eq
      rw [hindex, View.shared_setShared, if_pos rfl, he] at hrecorded
      have hrefs : (View.blank.setShared 0 e).logicalRefs l.superblock b.block = 0 :=
        List.countP_eq_zero.2 fun s hs =>
          absurd (View.mem_logical.1 hs).2.1 (View.not_active_blank_setShared 0 e s)
      rw [← hx.view] at hb hrefs
      obtain ⟨hstays, hzero, hhome, hfree⟩ :=
        uncounted_of_repair (hx.read_eq hr) List.reverse_perm hmount hb hrecorded.symm hrefs
      exact ⟨x.device, u, d', b.index, b.slot, hmount, hstays, hzero, hhome, hfree⟩
    · exact absurd hr hr'
  · exact absurd ⟨hr, Nat.le_refl _⟩ hfail

end Volume

end BlockStore
