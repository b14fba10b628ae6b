import BlockStore.Proofs.Faultless
import BlockStore.Proofs.InStep

/-!
# Refused operations

Without faults an operation fails only for a reason that is in what it is asked or in how full the volume
is, and then all is as it was: every byte of the device, the bitmap in memory, and the free list with its
order. Most refusals come before the first write. A value, though, may be refused when its key has been
created and a candidate block has been filled. Giving the candidate back and discarding the key puts the
two slots on the free list in the order that they were taken in, and restores what was in their blocks.

The volume may have been empty under any superblock that passes its check, so the dedup table may be too
small for the volume.

## Main definitions

* `Volume.Quiet`: the states that come about without faults.
* `Operation.MayFailWith`: the reasons for which an operation may fail.

## Main results

* `Volume.Quiet.exact`: no slot is lost in any of them.
* `Volume.unchanged_of_refused`: an operation that fails in such a state changes nothing.
-/

namespace BlockStore

/-- The reasons for which an operation may fail though no transfer does. -/
def Operation.MayFailWith : Operation → StoreError → Prop
  | create key _, e => e = .keyExists key ∨ e = .noSpace
  | put _ data _ _, e => e = .valueTooLarge data.size ∨ e = .noSpace ∨ e = .tableFull ∨
      ∃ b, e = .refcountSaturated b
  | remove key, e => e = .notFound (.key key)
  | rename old new, e => e = .notFound (.key old) ∨ e = .keyExists new
  | check _ _, _ => False
  | query _, _ => True

namespace Volume

variable {sb : Superblock} {v u : Volume} {w : View} {free : List Nat}

/-- The states that a volume with this superblock can come to be in if no transfer ever fails and it is
empty at first: no key, no shared block, no bit set, and zeros in every data block. -/
inductive Quiet (sb : Superblock) : Volume → Prop where
  /-- A device with an empty volume has been mounted, with or without repair. -/
  | attach {d d' : Device} {v : Volume} (hd : d.Reliable) (hread : Superblock.read d = .ok sb)
      (hempty : sb.view d.image = .blank) (order : VisitOrder) (repair : Bool)
      (hv : mountVisiting order.visit repair d = .ok v d') : Quiet sb v
  /-- An operation has run, and has succeeded or failed. -/
  | run {v : Volume} (h : Quiet sb v) (o : Operation) : Quiet sb (o.after v)
  /-- Its device has been mounted again, with or without repair. -/
  | mount {v u : Volume} {d' : Device} (h : Quiet sb v) (order : VisitOrder) (repair : Bool)
      (hu : mountVisiting order.visit repair v.device = .ok u d') : Quiet sb u

theorem Quiet.exact (h : Quiet sb v) : Passes sb True (View.Exact sb) v := by
  induction h with
  | @attach d d' v hd hread hempty order repair hv =>
    obtain ⟨hstored, hfits⟩ := Superblock.of_read hread
    obtain ⟨u, hattach, -⟩ := mountVisiting_cases hv
    obtain ⟨rfl, hu⟩ := shows_of_attach hattach hstored hfits
    rw [hempty] at hu
    have hshows : u.Shows sb True .blank (clearSlots sb .blank) :=
      ⟨hu.mounted, hu.superblock, hu.reliable.trans (iff_true_intro hd), hu.view, hu.free⟩
    exact exact_mount hshows (View.exact_blank sb) hv
  | run _ o ih =>
    obtain ⟨w, free, hv, hw⟩ := ih
    exact exact_operation hv hw o
  | mount _ order repair hu ih =>
    obtain ⟨w, free, hv, hw⟩ := ih
    exact exact_mount hv hw hu

/-- What is in memory for the slots is the bitmap that is on the device, and the free list. -/
theorem Shows.allocator_eq {r : Prop} {w' : View} (h : v.Shows sb r w free) (hu : u.Shows sb r w' free)
    (hbitmap : sb.bitmapOf u.device.image = sb.bitmapOf v.device.image) : u.allocator = v.allocator := by
  have hstart : u.allocator.start = v.allocator.start := hu.seated.start.trans h.seated.start.symm
  have hslots : u.allocator.slots = v.allocator.slots := hu.seated.slots.trans h.seated.slots.symm
  have hbits : u.allocator.bitmap = v.allocator.bitmap := by
    rw [hu.seated.bitmap, h.seated.bitmap, hbitmap]
  have hfree : u.allocator.free = v.allocator.free := hu.free.trans h.free.symm
  cases hua : u.allocator
  cases hva : v.allocator
  simp_all

/-- After edits that lead back to the same view and the same free list, all is as before. -/
theorem Shows.unchanged {r : Prop} (h : v.Shows sb r w free) (hu : u.Shows sb r w free)
    (hedited : Edited sb v u) : u.device.image = v.device.image ∧ u.allocator = v.allocator := by
  have himage : u.device.image = v.device.image :=
    (hedited.sameMargin h.seated).eq_of_view (hu.view.trans h.view.symm)
  exact ⟨himage, h.allocator_eq hu (congrArg sb.bitmapOf himage)⟩

/-- An operation that fails on an exact volume has its reason, and leads back to the same view and the
same free list. -/
theorem shows_of_refused (h : v.Shows sb True w free) (hw : w.Exact sb) {o : Operation} {e : StoreError}
    (hrun : o.run v = .error e u) : o.MayFailWith e ∧ u.Shows sb True w free := by
  have hall : Runs sb True (fun _ => True) o.run v (fun _ _ => True)
      fun e u => o.MayFailWith e ∧ u.Shows sb True w free := by
    cases o with
    | create key now =>
      refine (((runs_create h hw.sound key now).weaken fun _ _ => trivial).mono (fun _ _ hq => hq)
        fun e u he => ?_).bind fun _ _ _ => .pure trivial
      obtain ⟨hu, ⟨rfl, -⟩ | ⟨rfl, -⟩⟩ := he.2 trivial
      · exact ⟨.inl rfl, hu⟩
      · exact ⟨.inr rfl, hu⟩
    | put key data created stored =>
      refine (((runs_put h hw.sound key data (fun _ => trivial) created stored).weaken fun _ _ =>
        trivial).mono (fun _ _ hq => hq) fun e u he => ?_).bind fun _ _ _ => .pure trivial
      obtain ⟨hu, ⟨-, rfl⟩ | ⟨-, -, rfl⟩ | ⟨-, -, -, ⟨i, -, -, -, rfl⟩ | ⟨rfl, -⟩⟩⟩ := he trivial
      · exact ⟨.inl rfl, hu⟩
      · exact ⟨.inr (.inl rfl), hu⟩
      · exact ⟨.inr (.inr (.inr ⟨_, rfl⟩)), hu⟩
      · exact ⟨.inr (.inr (.inl rfl)), hu⟩
    | remove key =>
      refine ((runs_remove h hw.sound key).weaken fun _ _ => trivial).mono (fun _ _ _ => trivial)
        fun e u he => ?_
      obtain ⟨hu, rfl, -⟩ := he trivial
      exact ⟨rfl, hu⟩
    | rename old new =>
      refine ((runs_rename h hw.sound old new).weaken fun _ _ => trivial).mono (fun _ _ _ => trivial)
        fun e u he => ?_
      obtain ⟨hu, ⟨rfl, -⟩ | ⟨rfl, -⟩⟩ := he trivial
      · exact ⟨.inl rfl, hu⟩
      · exact ⟨.inr rfl, hu⟩
    | check order repair =>
      obtain ⟨report, t, free', hcheck, -⟩ :=
        h.check_of_tidy trivial (hw.tidy h.fits) order.perm repair
      simp only [Operation.run, Bind.bind, EStateM.bind, hcheck] at hrun
      cases hrun
    | query f => exact .look (fun _ _ => trivial) fun _ _ => ⟨trivial, h.tick⟩
  exact hall.of_error hrun

/-- **A refusal changes nothing.** An operation that fails although no transfer does has failed for one
of its reasons, and every byte of the device, the bitmap and the free list are what they were. -/
theorem unchanged_of_refused (h : Quiet sb v) (o : Operation) {e : StoreError}
    (hrun : o.run v = .error e u) :
    o.MayFailWith e ∧ u.device.image = v.device.image ∧ u.allocator = v.allocator := by
  obtain ⟨w, free, hv, hw⟩ := h.exact
  obtain ⟨hreason, hu⟩ := shows_of_refused hv hw hrun
  have hedited := hv.seated.edited_after o
  simp only [Operation.after, hrun] at hedited
  exact ⟨hreason, hv.unchanged hu hedited⟩

/-- On a deduplicating volume with one slot the key of a value leaves no room for its contents. The value is
refused, and the key that was created for it goes away again. -/
theorem unchanged_one_slot :
    ∃ v d' u d'' e t, format ⟨1, true, by decide, by decide⟩
        (.ofImage (.blank (Layout.totalSize 1 true))) = .ok v d' ∧
      mountVisiting id false v.device = .ok u d'' ∧
      (Operation.put .zero (zeros 5) ⟨0⟩ ⟨0⟩).run u = .error e t ∧
      (Operation.put .zero (zeros 5) ⟨0⟩ ⟨0⟩).MayFailWith e ∧
      t.device.image = u.device.image ∧ t.allocator = u.allocator := by
  have hd := Device.reliable_ofImage (.blank (Layout.totalSize 1 true))
  rcases format_cases ⟨1, true, by decide, by decide⟩ (.ofImage (.blank (Layout.totalSize 1 true))) with
    ⟨v, hv, -⟩ | ⟨-, hfail⟩
  · have hshows := shows_of_format hv
    have hr : v.device.Reliable := hshows.reliable.2 hd
    have hread := hshows.read_eq hd
    obtain ⟨hstored, hfits⟩ := Superblock.of_read hread
    rcases attach_cases hstored hfits with ⟨u, hattach, -, hu⟩ | ⟨-, hno⟩
    · have hmount : mountVisiting id false v.device = .ok u v.device := by
        simp [mountVisiting, hattach]
      have hquiet := Quiet.attach hr hread hshows.view ⟨id, List.Perm.refl⟩ false hmount
      rw [hshows.view] at hu
      have hfree : (clearSlots (Layout.superblock ⟨1, true, by decide, by decide⟩) .blank).length ≤ 1 :=
        List.length_filter_le _ _
      rcases (runs_put (P := fun _ => True) (σ := fun _ => 0) hu (View.sound_blank _ _ _) .zero (zeros 5)
        (fun _ => trivial) ⟨0⟩ ⟨0⟩).result with ⟨_, _, -, -, -, hroom, -⟩ | ⟨e, t, hrun, -, -⟩
      · rw [View.contents_blank] at hroom
        exact absurd (Nat.le_trans hroom hfree) (by decide)
      · have hrefused : (Operation.put .zero (zeros 5) ⟨0⟩ ⟨0⟩).run u = .error e t := by
          simp only [Operation.run, Bind.bind, EStateM.bind, hrun]
        exact ⟨v, _, u, _, e, t, hv, hmount, hrefused, unchanged_of_refused hquiet _ hrefused⟩
    · exact absurd hr hno
  · exact absurd ⟨hd, Nat.le_refl _⟩ hfail

end Volume

end BlockStore
