import BlockStore.Proofs.Attach
import BlockStore.Proofs.Format
import BlockStore.Proofs.Repair

/-!
# Repairing any volume

Nothing is assumed here of what a volume holds: its superblock describes a volume that fits on the
device, and the device lets every transfer through. One repair then makes the volume consistent, and
after it every check, with or without repair, finds nothing and writes nothing.

## Main definitions

* `View.Wanted`: the slots that a repair leaves in use.
* `Volume.ChecksClean`: every check finds nothing and writes nothing.

## Main results

* `Volume.shows_of_mountVisiting`: what a volume shows after it has been mounted.
* `Volume.repair_settles`: what a repair of an arbitrary image leads to.
-/

namespace BlockStore

namespace View

/-- The slot has the first active entry of a key, or a slot that has one points at its block, with a
pointer that is not among the `dangling` ones. -/
def Wanted (w : View) (sb : Superblock) (dangling : List Nat) (s : Nat) : Prop :=
  w.First s ∨
    sb.isDedup ∧ ∃ t < sb.slots, w.First t ∧ t ∉ dangling ∧ w.pointer t = sb.dataBlock s

theorem mem_referenced {w : View} {sb : Superblock} {length s : Nat} (hfits : sb.Fits length)
    (hs : s < sb.slots) : s ∈ w.referenced sb ↔ w.Wanted sb (w.dangling sb) s := by
  rw [referenced, List.mem_append, mem_logical, and_iff_right hs, mem_kept hfits, Wanted]
  refine or_congr_right ?_
  constructor
  · rintro ⟨b, hb, rfl, t, ht, hpointer⟩
    have hclaims := claims_of_mem hb
    obtain ⟨hlt, hfirst⟩ := mem_logical.1 ht
    refine ⟨hclaims.isDedup, t, hlt, hfirst, fun hdangling => ?_, hpointer.trans hclaims.block_of⟩
    exact (mem_dangling.1 hdangling).2.2.2 (List.mem_map.2 ⟨b, hb, hpointer.symm⟩)
  · rintro ⟨hd, t, hlt, hfirst, hkept, hpointer⟩
    have ht : t ∈ w.logical sb := mem_logical.2 ⟨hlt, hfirst⟩
    have hne : w.pointer t ≠ 0 := hpointer ▸ hfits.dataBlock_ne_zero s
    obtain ⟨b, hb, hblock⟩ := exists_block_of_not_dangling hd ht hkept hne
    have hslot := (claims_of_mem hb).block_of.symm.trans (hblock.trans hpointer)
    exact ⟨b, hb, Superblock.dataBlock_inj hslot, t, ht, hblock.symm⟩

end View

namespace Volume

variable {sb : Superblock} {r : Prop} {v u : Volume} {w : View} {free : List Nat} {d : Device}
  {visit : List SharedBlock → List SharedBlock}

/-- A trail on which no write is allowed has none. -/
theorem Trail.writesSince_eq_nil {I : Volume → Prop} (hI : ∀ u, ¬ I u) (h : Trail I v u) :
    v.writesSince u = [] := by
  induction h with
  | refl => exact writesSince_self v
  | tick _ ih => exact ih
  | write _ _ _ _ hw _ => exact absurd hw (hI _)

/-- On a reliable device a check reports what the view says, and a repair makes the changes that the
view asks for. -/
theorem Shows.check_eq (h : v.Shows sb r w free) (hr : r) (hvisit : ∀ l, (visit l).Perm l)
    (repair : Bool) {C : View → Prop}
    (hC : w.Along C (if repair then w.repairs sb visit else [])) :
    ∃ u free', checkVisiting visit repair v = .ok (w.report sb visit repair) u ∧
      Trail (Passes sb r C) v u ∧
      u.Shows sb r (if repair then w.repaired sb visit else w) free' := by
  rcases (performs_check hvisit repair C v free h hC).result with
    ⟨report, u, hrun, htrail, rfl, free', hu⟩ | ⟨e, u, -, -, hr'⟩
  · refine ⟨u, free', hrun, htrail, ?_⟩
    cases repair <;> exact hu
  · exact absurd hr hr'

/-- A check that succeeds has done all of that, even if the device is not reliable. -/
theorem Shows.of_checkVisiting (h : v.Shows sb r w free) (hvisit : ∀ l, (visit l).Perm l)
    {repair : Bool} {report : CheckReport} (hrun : checkVisiting visit repair v = .ok report u) :
    ∃ free', u.Shows sb r (if repair then w.repaired sb visit else w) free' := by
  obtain ⟨-, free', hu⟩ :=
    (performs_check hvisit repair _ v free h (View.along_true _ _)).of_ok hrun
  refine ⟨free', ?_⟩
  cases repair <;> exact hu

/-- What a volume shows after it has been mounted. -/
theorem shows_of_mountVisiting {d' : Device} {repair : Bool}
    (h : mountVisiting visit repair d = .ok u d')
    (hstored : Superblock.decode (d.image.block 0).bytes = .ok sb) (hfits : sb.Fits d.size)
    (hvisit : ∀ l, (visit l).Perm l) :
    ∃ free, u.Shows sb d.Reliable
      (if repair then (sb.view d.image).repaired sb visit else sb.view d.image) free := by
  obtain ⟨v, hattach, hrun⟩ := attached_of_mountVisiting h
  obtain ⟨-, hv⟩ := shows_of_attach hattach hstored hfits
  cases repair with
  | false =>
    obtain rfl : u = v := hrun
    exact ⟨_, hv⟩
  | true =>
    obtain ⟨report, hrun⟩ := hrun
    exact hv.of_checkVisiting hvisit hrun

/-- Where there is nothing to repair, mounting shows what is on the device. -/
theorem shows_of_mountVisiting_tidy {d' : Device} {repair : Bool}
    (h : mountVisiting visit repair d = .ok u d')
    (hstored : Superblock.decode (d.image.block 0).bytes = .ok sb) (hfits : sb.Fits d.size)
    (hvisit : ∀ l, (visit l).Perm l) (hw : (sb.view d.image).Tidy sb) :
    ∃ free, u.Shows sb d.Reliable (sb.view d.image) free := by
  obtain ⟨free, hshows⟩ := shows_of_mountVisiting h hstored hfits hvisit
  rw [View.repaired, hw.repairs_eq_nil hvisit, View.after_nil, ite_self] at hshows
  exact ⟨free, hshows⟩

/-- A reliable device with a superblock that fits can be mounted, with or without repair. -/
theorem exists_mountVisiting (hr : d.Reliable)
    (hstored : Superblock.decode (d.image.block 0).bytes = .ok sb) (hfits : sb.Fits d.size)
    (hvisit : ∀ l, (visit l).Perm l) (repair : Bool) :
    ∃ u d', mountVisiting visit repair d = .ok u d' := by
  rcases attach_cases hstored hfits with ⟨v, hattach, -, hv⟩ | ⟨-, hr'⟩
  · cases repair with
    | false => exact ⟨v, d, mountVisiting_of_attach hattach⟩
    | true =>
      obtain ⟨u, -, hrun, -⟩ := hv.check_eq hr hvisit true (View.along_true _ _)
      exact ⟨u, u.device, mountVisiting_of_check hattach hrun⟩
  · exact absurd hr hr'

/-- Every check, with or without repair, finds nothing and writes nothing. -/
def ChecksClean (v : Volume) : Prop :=
  ∀ visit : List SharedBlock → List SharedBlock, (∀ l, (visit l).Perm l) → ∀ repair,
    ∃ report u, checkVisiting visit repair v = .ok report u ∧ report.isClean ∧ v.writesSince u = []

theorem Shows.check_of_tidy (h : v.Shows sb r w free) (hr : r) (hw : w.Tidy sb)
    (hvisit : ∀ l, (visit l).Perm l) (repair : Bool) :
    ∃ report u free', checkVisiting visit repair v = .ok report u ∧ report.isClean ∧
      v.writesSince u = [] ∧ u.Shows sb r w free' := by
  have hnone : (if repair then w.repairs sb visit else []) = [] := by
    rw [hw.repairs_eq_nil hvisit]
    exact ite_self _
  obtain ⟨u, free', hrun, htrail, hu⟩ := h.check_eq hr hvisit repair (C := fun _ => False)
    (by rw [hnone]; trivial)
  refine ⟨_, u, free', hrun, hw.isClean_report hvisit repair, htrail.writesSince_eq_nil ?_, ?_⟩
  · rintro u ⟨_, _, _, hfalse⟩
    exact hfalse
  · rw [View.repaired, hw.repairs_eq_nil hvisit] at hu
    cases repair <;> exact hu

theorem Shows.checksClean (h : v.Shows sb r w free) (hr : r) (hw : w.Tidy sb) : v.ChecksClean := by
  intro visit hvisit repair
  obtain ⟨report, u, free', hrun, hclean, hwrites, -⟩ := h.check_of_tidy hr hw hvisit repair
  exact ⟨report, u, hrun, hclean, hwrites⟩

/-- **A repair settles every image.** Whatever a device holds behind a superblock that fits: mounting it
without repair and then repairing it succeeds; the bits in memory and on the device, and the free list,
are then those of the slots that are wanted; and from then on every check finds nothing and writes
nothing. -/
theorem repair_settles (hr : d.Reliable) (hread : Superblock.read d = .ok sb)
    (hvisit : ∀ l, (visit l).Perm l) :
    ∃ v report u, mount false d = .ok v d ∧ checkVisiting visit true v = .ok report u ∧
      (∀ s < sb.slots,
        (u.allocator.isUsed s ↔ (sb.view d.image).Wanted sb report.danglingPointers s) ∧
        (testSlot (sb.bitmapOf u.device.image) s ↔
          (sb.view d.image).Wanted sb report.danglingPointers s)) ∧
      u.allocator.free.Nodup ∧
      (∀ s, s ∈ u.allocator.free ↔
        s < sb.slots ∧ ¬ (sb.view d.image).Wanted sb report.danglingPointers s) ∧
      u.ChecksClean ∧
      ∀ visit' : List SharedBlock → List SharedBlock, (∀ l, (visit' l).Perm l) →
        ∃ report' t, checkVisiting visit' false u = .ok report' t ∧ t.ChecksClean := by
  obtain ⟨hstored, hfits⟩ := Superblock.of_read hread
  have hwithin := View.within_view sb d.image
  rcases attach_cases hstored hfits with ⟨v, hattach, rfl, hv⟩ | ⟨-, hr'⟩
  · obtain ⟨u, free', hrun, -, hu⟩ := hv.check_eq hr hvisit true (C := fun _ => True)
      (View.Along.of_step trivial fun _ _ _ _ => trivial)
    have htidy := hwithin.tidy_repaired hfits hvisit
    have hused {s : Nat} (hs : s < sb.slots) :
        ((sb.view v.device.image).repaired sb visit).used s ↔
          (sb.view v.device.image).Wanted sb ((sb.view v.device.image).dangling sb) s := by
      rw [View.used_repaired, if_pos hs, decide_eq_true_eq, View.mem_referenced hfits hs]
    simp only [if_true] at hu
    refine ⟨v, _, u, by simp [mount, mountVisiting, hattach], hrun, fun s hs => ⟨?_, ?_⟩, ?_, fun s => ?_,
      hu.checksClean hr htidy, fun visit' hvisit' => ?_⟩
    · rw [hu.isUsed_eq]
      exact hused hs
    · have hbit : testSlot (sb.bitmapOf u.device.image) s = (sb.view u.device.image).used s := by
        simp [Superblock.view, hs]
      rw [hbit, hu.view]
      exact hused hs
    · rw [hu.free]
      exact hu.nodup
    · rw [hu.free, hu.mem_free]
      refine and_congr_right ?_
      intro hs
      rw [← Bool.not_eq_true]
      exact not_congr (hused hs)
    · obtain ⟨report', t, free'', hrun', -, -, ht⟩ := hu.check_of_tidy hr htidy hvisit' false
      exact ⟨report', t, hrun', ht.checksClean hr htidy⟩
  · exact absurd hr hr'

/-- A device with nothing on it but the superblock. -/
def bareDevice (l : Layout) : Device :=
  .ofImage ((Image.blank l.size).write 0 (Block.ofBytes l.superblock.encode).bytes)

theorem size_bareDevice (l : Layout) : (bareDevice l).size = l.size := by
  have hlt : (0 + 1) * blockSize ≤ (Image.blank l.size).size := by
    change (0 + 1) * blockSize ≤ Layout.totalSize l.slots l.dedup
    rw [Layout.totalSize]
    omega
  exact Image.size_write_of_le hlt

theorem read_bareDevice (l : Layout) : Superblock.read (bareDevice l) = .ok l.superblock := by
  have hr : (bareDevice l).Reliable := Device.reliable_ofImage _
  have hstored : Superblock.decode ((bareDevice l).image.block 0).bytes = .ok l.superblock := by
    rw [bareDevice, Device.ofImage, Image.block_write_bytes, if_pos rfl]
    exact Superblock.decode_ofBytes_encode _
  have hfits : l.superblock.Fits (bareDevice l).size :=
    l.fits_superblock (Nat.le_of_eq (size_bareDevice l).symm)
  exact (Superblock.read_cases hstored hfits).resolve_right fun h => h.2 hr

/-- Of a deduplicating volume with two slots only the superblock is there; no entry is valid. -/
theorem repair_settles_bare :
    (bareDevice ⟨2, true, by decide, by decide⟩).Reliable ∧
      ∃ v report u, mount false (bareDevice ⟨2, true, by decide, by decide⟩) =
          .ok v (bareDevice ⟨2, true, by decide, by decide⟩) ∧
        checkVisiting List.reverse true v = .ok report u ∧ u.allocator.free.Nodup ∧ u.ChecksClean := by
  have hr : (bareDevice ⟨2, true, by decide, by decide⟩).Reliable := Device.reliable_ofImage _
  obtain ⟨v, report, u, hmount, hrun, -, hnodup, -, hclean, -⟩ :=
    repair_settles hr (read_bareDevice _) List.reverse_perm
  exact ⟨hr, v, report, u, hmount, hrun, hnodup, hclean⟩

end Volume

end BlockStore
