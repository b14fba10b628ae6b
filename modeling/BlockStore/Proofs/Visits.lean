import BlockStore.Proofs.DryRun
import BlockStore.Proofs.InStep
import BlockStore.Proofs.Remount
import Mathlib.Data.List.Nodup

/-!
# The order in which counts are compared

A check goes through the blocks of the dedup table in an order that is left open. Each step reads one
entry of the table and may write it back, and up to 128 entries share a block, so that a step also writes
back what other steps have written. The accepted entries have different indices. So the steps commute, and
after the last one the table is the same in whatever order they came.

From there on both checks are at the same point, on devices with the same contents; but the devices are
not equal, since they have seen their writes in different orders. `Device.Alike` is what is left to compare
them by, and the rest of the check stays in step on them.

## Main definitions

* `Device.Alike`: reliable devices with the same contents.
* `Volume.KeepsAllocator`: an action that does not touch bits or the free list.
* `View.miscounted`: two entries of which both have wrong counts.

## Main results

* `View.after_countChanges`: corrections of counts, in one order and in another.
* `Volume.checkVisiting_eq_of_order`: two checks of a volume, with or without repair.
-/

namespace BlockStore

/-! ### The steps commute -/

namespace View

variable {w : View} {sb : Superblock} {visit visit' : List SharedBlock → List SharedBlock}

theorem setShared_comm (w : View) {i j : Nat} (hij : i ≠ j) (e f : DedupEntry) :
    (w.setShared i e).setShared j f = (w.setShared j f).setShared i e := by
  refine View.ext (fun _ => rfl) (fun k => ?_) (fun _ => rfl) fun _ => rfl
  simp only [shared_setShared]
  split
  case isTrue hk => rw [if_neg (fun hki => hij (hki.symm.trans hk))]
  case isFalse => rfl

/-- Entries with different indices may be written in any order. -/
theorem after_setShared {blocks blocks' : List SharedBlock} (hperm : blocks.Perm blocks')
    (hnodup : (blocks.map (·.index)).Nodup) (entry : SharedBlock → DedupEntry) :
    w.after (blocks.map fun b => .setShared b.index (entry b)) =
      w.after (blocks'.map fun b => .setShared b.index (entry b)) := by
  rw [after, after, List.foldl_map, List.foldl_map]
  refine hperm.foldl_eq' (fun a ha b hb w => ?_) w
  by_cases hab : a = b
  · rw [hab]
  · exact w.setShared_comm (fun hindex => hab (List.inj_on_of_nodup_map hnodup ha hb hindex)) _ _

/-- The corrections of the counts leave the same view in any order. -/
theorem after_countChanges (hvisit : ∀ l, (visit l).Perm l) (hvisit' : ∀ l, (visit' l).Perm l)
    (pointers : List Nat) (u : View) :
    u.after (w.countChanges pointers (visit (w.accepted sb))) =
      u.after (w.countChanges pointers (visit' (w.accepted sb))) := by
  have hperm : (visit (w.accepted sb)).Perm (visit' (w.accepted sb)) := (hvisit _).trans (hvisit' _).symm
  refine after_setShared (hperm.filter _) ?_ _
  exact (nodup_visited hvisit).sublist (List.filter_sublist.map _)

/-- So do all changes of the dedup table that a repair makes. -/
theorem after_sharedRepairs (hvisit : ∀ l, (visit l).Perm l) (hvisit' : ∀ l, (visit' l).Perm l) :
    w.after (w.sharedRepairs sb visit) = w.after (w.sharedRepairs sb visit') := by
  simp only [sharedRepairs, after_append, after_countChanges hvisit hvisit']

end View

/-! ### Devices with the same contents -/

/-- Reliable devices with the same contents, whatever has been written on them before. -/
structure Device.Alike (d d' : Device) : Prop where
  left : d.Reliable
  right : d'.Reliable
  image : d'.image = d.image

namespace Device.Alike

variable {d d' : Device} {n : Nat}

theorem holds (h : Alike d d') (hn : d.Holds n) : d'.Holds n :=
  hn.of_size_eq (congrArg Image.size h.image)

theorem readBlock_eq (h : d.Reliable) (hn : d.Holds n) : d.readBlock n = .ok (d.image.block n) :=
  (Device.readBlock_eq hn).resolve_right fun hfault => hfault.2 h

theorem writeBlock_eq (h : d.Reliable) (hn : d.Holds n) (b : Block) :
    writeBlock n b d = .ok () (d.wrote n b) :=
  (Device.writeBlock_eq hn b).resolve_right fun hfault => hfault.2 h

/-- No transfer of a volume fails on them, so they stay in step. -/
theorem parallel (sb : Superblock) : Parallel sb Alike fun _ => False where
  image := image
  tick h := ⟨reliable_tick.2 h.left, reliable_tick.2 h.right, h.image⟩
  read h n hn := by rw [readBlock_eq h.left hn, readBlock_eq h.right (h.holds hn), h.image]
  write h n hn _ b := by
    refine .inl ⟨writeBlock_eq h.left hn b, writeBlock_eq h.right (h.holds hn) b, ?_⟩
    exact ⟨(hn.reliable_wrote b).2 h.left, ((h.holds hn).reliable_wrote b).2 h.right,
      congrArg (·.write n b.bytes) h.image⟩
  stays_tick := False.elim
  stays_write h := h.elim

end Device.Alike

namespace Volume

/-! ### Actions that leave the allocator alone -/

/-- The action does not touch the bits in memory nor the free list. -/
def KeepsAllocator {α : Type} (act : VolumeM α) : Prop :=
  ∀ v, match act v with
    | .ok _ u => u.allocator = v.allocator
    | .error _ u => u.allocator = v.allocator

namespace KeepsAllocator

variable {α β : Type} {act : VolumeM α} {f : α → VolumeM β}

theorem of_ok (h : KeepsAllocator act) {a : α} {v u : Volume} (hrun : act v = .ok a u) :
    u.allocator = v.allocator := by
  have hv := h v
  rw [hrun] at hv
  exact hv

theorem pure (a : α) : KeepsAllocator (Pure.pure a : VolumeM α) := fun _ => rfl

theorem bind (hact : KeepsAllocator act) (hf : ∀ a, KeepsAllocator (f a)) :
    KeepsAllocator (act >>= f) := by
  intro v
  have hv := hact v
  cases hrun : act v with
  | error e u =>
    rw [hrun] at hv
    rw [bind_of_error hrun]
    exact hv
  | ok a u =>
    rw [hrun] at hv
    have hu := hf a u
    rw [bind_of_ok hrun]
    cases hrest : f a u with
    | ok b t =>
      rw [hrest] at hu
      exact hu.trans hv
    | error e t =>
      rw [hrest] at hu
      exact hu.trans hv

theorem get_bind {f : Volume → VolumeM β} (hf : ∀ v, KeepsAllocator (f v)) :
    KeepsAllocator (get >>= f) := fun v => hf v v

theorem look (f : Volume → Except StoreError α) : KeepsAllocator (look f) := by
  intro v
  rw [Volume.look]
  cases f v <;> rfl

theorem onDevice (act : DeviceM α) : KeepsAllocator (onDevice act) := by
  intro v
  rw [Volume.onDevice]
  cases act v.device <;> rfl

end KeepsAllocator

theorem keepsAllocator_checkPointers (repair : Bool) (blocks slots : List Nat) :
    KeepsAllocator (checkPointers repair blocks slots) := by
  induction slots with
  | nil => exact .pure _
  | cons s slots ih =>
    refine .bind (.look _) fun pointer => ?_
    split
    · exact ih
    split
    · exact ih.bind fun _ => .pure _
    dsimp only
    split
    · exact .bind (.get_bind fun _ => .onDevice _) fun _ => ih.bind fun _ => .pure _
    · exact ih.bind fun _ => .pure _

theorem keepsAllocator_checkCounts (repair : Bool) (table : DedupTable) (pointers : List Nat)
    (blocks : List SharedBlock) : KeepsAllocator (checkCounts repair table pointers blocks) := by
  induction blocks with
  | nil => exact .pure _
  | cons b blocks ih =>
    simp only [checkCounts]
    split
    · exact ih
    split
    · exact .bind (.look _) fun _ => .bind (.onDevice _) fun _ => ih.bind fun _ => .pure _
    · exact ih.bind fun _ => .pure _

theorem keepsAllocator_freeDedupEntries (table : DedupTable) (indices : List Nat) :
    KeepsAllocator (freeDedupEntries table indices) := by
  induction indices with
  | nil => exact .pure _
  | cons i indices ih => exact .bind (.onDevice _) fun _ => ih

/-- Only the last stages of a check touch the allocator. -/
theorem keepsAllocator_checkShared (visit : List SharedBlock → List SharedBlock) (repair : Bool)
    (table : DedupTable) (logical : List Nat) :
    KeepsAllocator (checkShared visit repair table logical) := by
  refine .bind (.look _) fun entries => .get_bind fun v => ?_
  refine .bind (keepsAllocator_checkPointers _ _ _) fun _ => ?_
  refine .bind (keepsAllocator_checkCounts _ _ _ _) fun _ => ?_
  dsimp only
  split
  · exact .bind (keepsAllocator_freeDedupEntries _ _) fun _ => .pure _
  · exact .pure _

/-! ### Two checks -/

variable {sb : Superblock} {r : Prop} {D : Device → Device → Prop} {X : Device → Prop}
  {v v' u u' : Volume} {w w' : View} {free free' : List Nat}
  {visit visit' : List SharedBlock → List SharedBlock}

/-- Two volumes that came from one volume by edits, with its allocator and with the same view. -/
theorem Seated.twin_of_edited (h : v.Seated sb) (hu : Edited sb v u) (hu' : Edited sb v u')
    (hview : sb.view u'.device.image = sb.view u.device.image) (hr : u.device.Reliable)
    (hr' : u'.device.Reliable) (hallocator : u'.allocator = u.allocator) :
    Twin sb Device.Alike u u' where
  seated := h.edited hu
  superblock := (h.edited hu').superblock.trans (h.edited hu).superblock.symm
  allocator := hallocator
  device := ⟨hr, hr', ((hu.sameMargin h).symm.trans (hu'.sameMargin h)).eq_of_view hview⟩

/-- The stages of a check that read and write the dedup table, in one order and in another. -/
theorem checkShared_eq_of_order (hv : v.Shows sb r w free) (hr : r) (hd : sb.isDedup)
    (hvisit : ∀ l, (visit l).Perm l) (hvisit' : ∀ l, (visit' l).Perm l) (repair : Bool) :
    ∃ found u u',
      checkShared visit repair ⟨sb.dedupStart, sb.dedupBlocks⟩ (w.logical sb) v = .ok found u ∧
      checkShared visit' repair ⟨sb.dedupStart, sb.dedupBlocks⟩ (w.logical sb) v = .ok found u' ∧
      Twin sb Device.Alike u u' := by
  have hlogical : ∀ s ∈ w.logical sb, s < sb.slots := fun s hs => (View.mem_logical.1 hs).1
  have hone {visit : List SharedBlock → List SharedBlock} (hvisit : ∀ l, (visit l).Perm l) :
      ∃ u free', checkShared visit repair ⟨sb.dedupStart, sb.dedupBlocks⟩ (w.logical sb) v =
          .ok ⟨w.kept sb, w.dangling sb, (w.report sb visit repair).refcountFixes, w.rejected sb⟩ u ∧
        Edited sb v u ∧ u.allocator = v.allocator ∧
        u.Shows sb r (w.after (if repair then w.sharedRepairs sb visit else [])) free' := by
    rcases (performs_checkShared hd hvisit repair _ v free hv (View.along_true _ _)).result with
      ⟨_, u, hrun, -, rfl, free', hu⟩ | ⟨_, _, _, _, hr'⟩
    · have hfollows := follows_checkShared (Device.parallel_self sb) hv.seated.twin hvisit repair hlogical
      obtain ⟨_, -, -, hedited, -⟩ := hfollows.of_ok hrun
      exact ⟨u, free', hrun, hedited, (keepsAllocator_checkShared _ _ _ _).of_ok hrun, hu⟩
    · exact absurd hr hr'
  obtain ⟨u, _, hrun, hedited, hallocator, hu⟩ := hone hvisit
  obtain ⟨u', _, hrun', hedited', hallocator', hu'⟩ := hone hvisit'
  rw [View.refcountFixes_report hvisit hvisit' repair repair] at hrun
  have hafter : w.after (if repair then w.sharedRepairs sb visit else []) =
      w.after (if repair then w.sharedRepairs sb visit' else []) := by
    cases repair with
    | false => rfl
    | true => exact View.after_sharedRepairs hvisit hvisit'
  refine ⟨_, u, u', hrun, hrun', hv.seated.twin_of_edited hedited hedited' ?_ (hu.reliable.2 hr)
    (hu'.reliable.2 hr) (hallocator'.trans hallocator.symm)⟩
  rw [hu.view, hu'.view, hafter]

/-- The stages after that do not depend on the order any more. -/
theorem follows_checkSlots (hpar : Device.Parallel sb D X) (ht : Twin sb D v v') (repair : Bool)
    {roles : List (Nat × SlotRole)} (hroles : ∀ s ∈ slotsWhere SlotRole.isDiscarded roles, s < sb.slots)
    (shared : SharedFindings) :
    Follows sb D X (checkSlots repair roles shared) v v' fun _ => True := by
  have hbits {v v' : Volume} (ht : Twin sb D v v') (f : List Nat × List Nat → CheckReport) :
      Follows sb D X (do
        let found ← checkBitmap repair (slotsWhere (· = .logical) roles ++ shared.kept)
          (List.range (← get).superblock.slots)
        return f found) v v' fun _ => True := by
    refine .get_bind (by simp only [ht.superblock]) ?_
    rw [ht.seated.superblock]
    exact (follows_checkBitmap hpar ht repair _ fun s hs => List.mem_range.1 hs).bind
      fun _ _ _ _ ht => .pure ht trivial
  rw [checkSlots]
  dsimp only
  split
  · exact (follows_discardEntries hpar ht _ hroles).bind fun _ _ _ _ ht => hbits ht _
  · exact hbits ht _

/-- The stages of a check, once the key table has been read. -/
theorem checkVisiting_apply (hv : v.Shows sb r w free) (hr : r) (visit : List SharedBlock → List SharedBlock)
    (repair : Bool) : checkVisiting visit repair v =
      ((if sb.isDedup then checkShared visit repair ⟨sb.dedupStart, sb.dedupBlocks⟩ (w.logical sb)
        else pure ⟨[], [], [], []⟩) >>= checkSlots repair (w.roles sb)) v.tick := by
  have hcollect := hv.reads_entries.collect_eq.resolve_right fun hfault => hfault.2 hr
  have hkeys : look (fun v => collect (v.keyTable.entries v.device)) v = .ok (sb.keyEntries w) v.tick := by
    rw [look, hcollect]
  rw [checkVisiting, bind_of_ok hkeys, get_bind_apply, hv.tick.dedupTable_eq]
  split
  case isTrue => rfl
  case isFalse => rfl

/-- **The order does not matter.** Whatever the tables of a mounted volume hold, on a reliable device its
check reports the same in any two orders of comparing the counts. With repair and without, the bytes of the
device, the bits and the free list are the same afterwards. -/
theorem checkVisiting_eq_of_order (hv : v.Mounted) (hr : v.device.Reliable) (order order' : VisitOrder)
    (repair : Bool) :
    ∃ report u u', checkVisiting order.visit repair v = .ok report u ∧
      checkVisiting order'.visit repair v = .ok report u' ∧
      u'.device.image = u.device.image ∧ u'.allocator = u.allocator := by
  obtain ⟨sb, w, free, hshows⟩ : ∃ sb w free, v.Shows sb v.device.Reliable w free :=
    ⟨_, _, _, hv, rfl, Iff.rfl, rfl, rfl⟩
  have hroles : ∀ s ∈ w.discarded sb, s < sb.slots := fun s hs => (View.mem_discarded.1 hs).1
  have hstage : ∃ found u u', checkVisiting order.visit repair v = checkSlots repair (w.roles sb) found u ∧
      checkVisiting order'.visit repair v = checkSlots repair (w.roles sb) found u' ∧
      Twin sb Device.Alike u u' := by
    rw [checkVisiting_apply hshows hr, checkVisiting_apply hshows hr]
    by_cases hd : sb.isDedup
    · obtain ⟨found, u, u', hrun, hrun', ht⟩ :=
        checkShared_eq_of_order hshows.tick hr hd order.perm order'.perm repair
      rw [if_pos hd, if_pos hd]
      exact ⟨found, u, u', bind_of_ok hrun, bind_of_ok hrun', ht⟩
    · have hr' : v.tick.device.Reliable := Device.reliable_tick.2 hr
      rw [if_neg hd, if_neg hd]
      exact ⟨_, _, _, rfl, rfl, hshows.seated.tick, rfl, rfl, hr', hr', rfl⟩
  obtain ⟨found, u, u', hrun, hrun', ht⟩ := hstage
  obtain ⟨t, _, hok, -⟩ := hshows.check_eq hr order.perm repair (View.along_true _ _)
  obtain ⟨t', hok', -, -, hend⟩ :=
    (follows_checkSlots (Device.Alike.parallel sb) ht repair hroles found).of_ok (hrun.symm.trans hok)
  exact ⟨_, t, t', hok, hrun'.trans hok', hend.device.image, hend.allocator⟩

end Volume

/-! ### Two wrong counts -/

namespace View

variable {sb : Superblock} {key content other : Key} {length : Nat}

/-- A key with its value in slot 1. The entry of the value counts three pointers where there is one, and
another entry counts a pointer to slot 2 where there is none. -/
def miscounted (sb : Superblock) (key content other : Key) : View :=
  (((blank.setKey 0 (.active key ⟨0⟩)).setData 0 (Volume.pointerBlock (sb.dataBlock 1))).setShared 0
    { Volume.newEntry content (sb.dataBlock 1) with refCount := 3 }).setShared 1
      (Volume.newEntry other (sb.dataBlock 2))

theorem logical_miscounted (hslots : 3 ≤ sb.slots) :
    (miscounted sb key content other).logical sb = [0] := by
  have hfree : KeyEntry.free.isActive = false := by decide
  have hactive := isActive_active key ⟨0⟩
  refine logical_of_only (by omega) fun t => ?_
  rcases t with _ | t <;> simp [Active, miscounted, blank, hfree, hactive]

/-- Both entries are accepted. -/
theorem accepted_miscounted (hfits : sb.Fits length) (hslots : 3 ≤ sb.slots) (hcapacity : 2 ≤ sb.dedupCapacity)
    (hne : content ≠ other) : (miscounted sb key content other).accepted sb =
      [⟨sb.dataBlock 1, 1, 0, content, 3⟩, ⟨sb.dataBlock 2, 2, 1, other, 1⟩] := by
  have hidle : ∀ i, 2 ≤ i → ¬ (miscounted sb key content other).Held i := by
    intro i hi hheld
    have hfree : DedupEntry.free.isActive = false := by decide
    have h0 : i ≠ 0 := by omega
    have h1 : i ≠ 1 := by omega
    simp [Held, miscounted, blank, h0, h1, hfree] at hheld
  obtain ⟨e, he⟩ : ∃ e, e = { Volume.newEntry content (sb.dataBlock 1) with refCount := 3 } := ⟨_, rfl⟩
  have hentries : (List.range 2).map (fun i => (i, (miscounted sb key content other).shared i)) =
      [(0, e), (1, Volume.newEntry other (sb.dataBlock 2))] := by
    rw [he]
    rfl
  have hactive : e.isActive := he ▸ Volume.isActive_newEntry content (sb.dataBlock 1)
  have hblock : e.block = sb.dataBlock 1 := he ▸ Volume.block_newEntry content (hfits.dataBlock_lt_word (by omega))
  have hblock' : (Volume.newEntry other (sb.dataBlock 2)).block = sb.dataBlock 2 :=
    Volume.block_newEntry other (hfits.dataBlock_lt_word (by omega))
  have hkey : e.key = content ∧ e.refCount.toNat = 3 := he ▸ ⟨rfl, rfl⟩
  have hkey' : (Volume.newEntry other (sb.dataBlock 2)).key = other ∧
      (Volume.newEntry other (sb.dataBlock 2)).refCount.toNat = 1 := ⟨rfl, rfl⟩
  have hslot {t : Nat} (ht : t < 3) : sb.slotOfBlock (sb.dataBlock t) = some t :=
    Superblock.slotOfBlock_dataBlock (Nat.lt_of_lt_of_le ht hslots)
  have hdiff : sb.dataBlock 2 ≠ sb.dataBlock 1 := fun h => absurd (Superblock.dataBlock_inj h) (by decide)
  have hactive' := Volume.isActive_newEntry other (sb.dataBlock 2)
  rw [accepted, acceptEntries_sharedEntries hcapacity hidle, hentries, logical_miscounted hslots]
  simp [acceptEntries, accept?, hactive, hactive', hkey, hkey', hblock, hblock', hslot, hdiff, hne.symm]

/-- And both counts are wrong. -/
theorem refcountFixes_miscounted (hfits : sb.Fits length) (hd : sb.isDedup) (hslots : 3 ≤ sb.slots)
    (hcapacity : 2 ≤ sb.dedupCapacity) (hne : content ≠ other) (repair : Bool) :
    ((miscounted sb key content other).report sb id repair).refcountFixes = [⟨0, 3, 1⟩, ⟨1, 1, 0⟩] := by
  have hpointer : (miscounted sb key content other).pointer 0 = sb.dataBlock 1 :=
    Volume.pointer_pointerBlock (hfits.dataBlock_lt_word (by omega))
  have hdiff : sb.dataBlock 1 ≠ sb.dataBlock 2 := fun h => absurd (Superblock.dataBlock_inj h) (by decide)
  have hzero : sb.dataBlock 1 ≠ 0 := hfits.dataBlock_ne_zero 1
  have haccepted : (miscounted sb key content other).accepted sb = _ :=
    accepted_miscounted hfits hslots hcapacity hne
  have hpointers : (miscounted sb key content other).pointers sb = [sb.dataBlock 1] := by
    rw [pointers, if_pos hd, sharedBlocks, haccepted, logical_miscounted hslots]
    simp [pointersTo, hpointer, hzero]
  have hfixes : countFixes [sb.dataBlock 1]
      [⟨sb.dataBlock 1, 1, 0, content, 3⟩, ⟨sb.dataBlock 2, 2, 1, other, 1⟩] =
        [⟨0, 3, 1⟩, ⟨1, 1, 0⟩] := by
    simp [countFixes, refsTo, hdiff]
  rw [report]
  dsimp only
  rw [hpointers, haccepted, id, hfixes]
  exact List.mergeSort_of_pairwise (by simp)

end View

namespace Volume

/-- On every deduplicating layout with room for it there is such a volume. -/
theorem exists_shows_miscounted {l : Layout} (hd : l.dedup) (hslots : 3 ≤ l.slots) (key content other : Key) :
    ∃ v free, Shows v l.superblock True (View.miscounted l.superblock key content other) free := by
  have hthree : 3 ≤ l.superblock.slots := l.slots_superblock.symm ▸ hslots
  have hcapacity : 3 ≤ l.superblock.dedupCapacity := Nat.le_trans hthree (l.slots_le_dedupCapacity hd)
  have hzero : 0 < l.superblock.slots := by omega
  have hzero' : 0 < l.superblock.dedupCapacity := by omega
  have hone : 1 < l.superblock.dedupCapacity := by omega
  obtain ⟨v, -, hv⟩ := exists_format_blank l
  obtain ⟨v, hv⟩ := Runs.exists_shows (runs_writeKey hv hzero trivial)
  obtain ⟨v, hv⟩ := Runs.exists_shows (runs_writeData hv hzero trivial)
  obtain ⟨v, hv⟩ := Runs.exists_shows (runs_writeShared hv hzero' trivial)
  obtain ⟨v, hv⟩ := Runs.exists_shows (runs_writeShared hv hone trivial)
  exact ⟨v, _, hv⟩

/-- A volume with four slots has an entry that counts three pointers instead of one, and another that counts
one instead of none. It is repaired in the order of the table and in the order opposite to it. -/
theorem checkVisiting_miscounted_of_order :
    ∃ v : Volume, v.Mounted ∧ v.device.Reliable ∧ v.superblock.slots = 4 ∧
      ∃ report u u', checkVisiting id true v = .ok report u ∧
        checkVisiting List.reverse true v = .ok report u' ∧
        report.refcountFixes = [⟨0, 3, 1⟩, ⟨1, 1, 0⟩] ∧
        u'.device.image = u.device.image ∧ u'.allocator = u.allocator := by
  obtain ⟨l, hl⟩ : ∃ l : Layout, l = ⟨4, true, by decide, by decide⟩ := ⟨_, rfl⟩
  have hdedup : l.dedup := by rw [hl]
  have hslots : l.superblock.slots = 4 := by rw [l.slots_superblock, hl]
  have hcapacity : 4 ≤ l.superblock.dedupCapacity := by
    have := l.slots_le_dedupCapacity hdedup
    rwa [hl] at this ⊢
  have hd : l.superblock.isDedup := by rw [l.isDedup_superblock, hdedup]
  obtain ⟨other, hne⟩ : ∃ other : Key, .zero ≠ other :=
    ⟨⟨bytesOf (List.replicate keySize 1), by decide⟩, by decide⟩
  obtain ⟨v, free, hv⟩ := exists_shows_miscounted hdedup (by rw [hl]; decide) .zero .zero other
  have hr : v.device.Reliable := hv.reliable.2 trivial
  have hid : ∀ l : List SharedBlock, (id l).Perm l := fun l => .refl l
  obtain ⟨report, u, u', hrun, hrun', hsame⟩ :=
    checkVisiting_eq_of_order hv.mounted hr ⟨id, hid⟩ ⟨List.reverse, List.reverse_perm⟩ true
  obtain ⟨_, _, hreport, -⟩ := hv.check_eq trivial hid true (View.along_true _ _)
  rw [hrun] at hreport
  cases hreport
  refine ⟨v, hv.mounted, hr, by rw [hv.superblock, hslots], _, u, u', hrun, hrun', ?_, hsame⟩
  exact View.refcountFixes_miscounted hv.fits hd (by omega) (by omega) hne true

end Volume

end BlockStore
