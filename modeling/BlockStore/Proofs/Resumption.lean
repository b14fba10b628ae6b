import BlockStore.Proofs.Partway

/-!
# Repairing again

A repair that was interrupted is run again on whatever it has left. The second one succeeds, the volume is
consistent after it, and its keys are in the same slots as if the first repair had not been interrupted.
So are their values, unless a dedup entry is contested: then the interrupted repair can have freed the
entry that a bad entry was rejected for, and the second one accepts the bad entry and rejects a good one
for it. The values of the keys that pointed there read as zeros, and the second check reports them.

## Main definitions

* `Volume.Resumes`: the queries answer what they answer on another volume, but for values that were lost.

## Main results

* `Volume.repair_resumes`: the second repair, after any number of writes of the first.
-/

namespace BlockStore

namespace Volume

variable {sb : Superblock} {r r' : Prop} {v u t : Volume} {w x : View} {free free' : List Nat} {d : Device}
  {visit visit' : List SharedBlock → List SharedBlock}

/-! ### After the second repair -/

/-- The queries on `t` answer what they answer on `u`, except that the values of slots that are `lost`
read as zeros. -/
structure Resumes (t u : Volume) (lost : Nat → Prop) : Prop where
  lookup : ∀ key, t.lookup key = u.lookup key
  list : t.list = u.list
  get : ∀ key, t.get key = u.get key ∨ ∃ s, lost s ∧ u.lookup key = .ok s ∧ t.get key = .ok .zero

/-- Reading a key that is in no slot. -/
theorem Shows.get_eq_error (h : v.Shows sb r w free) (hr : r) {key : Key} (hslot : w.slotOf sb key = none) :
    v.get key = .error (.notFound (.key key)) := by
  have hlookup := h.lookup_eq hr key
  rw [hslot] at hlookup
  simp only [Volume.get, hlookup, bind, Except.bind]

theorem Shows.resumes (hu : u.Shows sb r (w.repaired sb visit) free) (hr : r)
    (ht : t.Shows sb r' (x.repaired sb visit') free') (hr' : r') (hw : w.Within sb) (hx : x.Within sb)
    (h : w.Partway sb x) : t.Resumes u fun s => s ∈ x.dangling sb ∧ s ∉ w.dangling sb := by
  have hkeys : ∀ s ∈ w.logical sb, x.keys s = w.keys s := fun s hs =>
    h.keys_of_first (View.mem_logical.1 hs).2
  have hslot (key : Key) : (x.repaired sb visit').slotOf sb key = (w.repaired sb visit).slotOf sb key := by
    rw [hw.slotOf_repaired, hx.slotOf_repaired, View.slotOf_congr h.logical_eq hkeys]
  refine ⟨fun key => ?_, ?_, fun key => ?_⟩
  · rw [hu.lookup_eq hr, ht.lookup_eq hr', hslot]
  · rw [hu.list_eq hr, ht.list_eq hr', hw.keyList_repaired, hx.keyList_repaired, View.eraseDups_keyList,
      View.eraseDups_keyList, h.logical_eq, List.map_congr_left fun s hs => by rw [hkeys s hs]]
  · cases hfound : (w.repaired sb visit).slotOf sb key with
    | none => exact .inl (by rw [hu.get_eq_error hr hfound, ht.get_eq_error hr' ((hslot key).trans hfound)])
    | some s =>
      have hlogical : s ∈ w.logical sb := by
        rw [hw.slotOf_repaired] at hfound
        exact (View.slotOf_eq_some_iff.1 hfound).1
      have hget := ht.get_eq_fetch hr' ((hslot key).trans hfound)
      by_cases hlost : s ∈ x.dangling sb ∧ s ∉ w.dangling sb
      · refine .inr ⟨s, hlost, (hu.lookup_eq_ok_iff hr).2 hfound, ?_⟩
        rw [hget, View.fetch_repaired_of_mem hu.fits hlost.1]
      · refine .inl ?_
        rw [hget, hu.get_eq_fetch hr hfound, h.fetch_resumed hu.fits hlogical]
        exact fun hmem => Classical.not_not.1 fun hno => hlost ⟨hmem, hno⟩

/-- What an interrupted repair leaves on a device fits it and is partway. -/
theorem Shows.partway_cut (h : v.Shows sb r w free) (hr : r) (hvisit : ∀ l, (visit l).Perm l)
    {report : CheckReport} (hrun : checkVisiting visit true v = .ok report u) {k : Nat}
    (himage : d.image = v.cut u k) :
    Superblock.decode (d.image.block 0).bytes = .ok sb ∧ sb.Fits d.size ∧
      w.Partway sb (sb.view d.image) := by
  obtain ⟨u', free', hrun', htrail, -⟩ := h.check_eq hr hvisit true (w.along_partway sb hvisit)
  rw [hrun] at hrun'
  cases hrun'
  obtain ⟨t, ⟨x, free'', ht, hpartway⟩, hcut⟩ := htrail.exists_cut (h.passes (w.partway_self sb)) k
  obtain ⟨hstored, hfits⟩ := ht.mounted.stored_on (himage.trans hcut.symm)
  rw [ht.superblock] at hstored hfits
  rw [himage, ← hcut, ht.view] at *
  exact ⟨hstored, hfits, hpartway⟩

/-- A device that is attached and repaired. -/
theorem exists_repair (hr : d.Reliable) (hstored : Superblock.decode (d.image.block 0).bytes = .ok sb)
    (hfits : sb.Fits d.size) (hvisit : ∀ l, (visit l).Perm l) :
    ∃ v u free free', mount false d = .ok v d ∧ v.device = d ∧
      v.Shows sb d.Reliable (sb.view d.image) free ∧
      checkVisiting visit true v = .ok ((sb.view d.image).report sb visit true) u ∧
      u.Shows sb d.Reliable ((sb.view d.image).repaired sb visit) free' ∧ u.ChecksClean := by
  rcases attach_cases hstored hfits with ⟨v, hattach, hdevice, hv⟩ | ⟨-, hr'⟩
  · obtain ⟨u, free', hrun, -, hu⟩ := hv.check_eq hr hvisit true (View.along_true _ _)
    exact ⟨v, u, _, free', mountVisiting_of_attach hattach, hdevice, hv, hrun, hu,
      hu.checksClean hr ((View.within_view sb d.image).tidy_repaired hfits hvisit)⟩
  · exact absurd hr hr'

/-- **An interrupted repair can be run again.** Whatever a device holds behind a superblock that fits: let
one repair run to its end, and let another one, in any order, be cut after `k` writes. What it has left can
be mounted and repaired, in any order again. Then every check finds nothing, and lookup and list answer
what they do after the first repair. So does every value, unless its slot is reported by the second check
and not by the first to have a dangling pointer; and no slot is, unless a dedup entry is contested. -/
theorem repair_resumes (hr : d.Reliable) (hread : Superblock.read d = .ok sb) (order order' : VisitOrder) :
    ∃ v report u report' u', mount false d = .ok v d ∧
      checkVisiting order.visit true v = .ok report u ∧
      checkVisiting order'.visit true v = .ok report' u' ∧
      ∀ (k : Nat) (d' : Device) (order'' : VisitOrder), d'.Reliable → d'.image = v.cut u' k →
        ∃ t again x, mount false d' = .ok t d' ∧ checkVisiting order''.visit true t = .ok again x ∧
          x.ChecksClean ∧
          x.Resumes u (fun s => s ∈ again.danglingPointers ∧ s ∉ report.danglingPointers) ∧
          (¬ (sb.view d.image).Contested sb → ∀ key, x.get key = u.get key) := by
  obtain ⟨hstored, hfits⟩ := Superblock.of_read hread
  obtain ⟨v, u, free, free', hmount, -, hv, hrun, hu, -⟩ := exists_repair hr hstored hfits order.perm
  obtain ⟨u', -, hrun', -⟩ := hv.check_eq hr order'.perm true (View.along_true _ _)
  refine ⟨v, _, u, _, u', hmount, hrun, hrun', fun k d' order'' hr' himage => ?_⟩
  obtain ⟨hstored', hfits', hpartway⟩ := hv.partway_cut hr order'.perm hrun' himage
  obtain ⟨t, x, -, free'', hmount', -, -, hrun'', hx, hclean⟩ :=
    exists_repair hr' hstored' hfits' order''.perm
  have hresumes := hu.resumes hr hx hr' (View.within_view sb d.image) (View.within_view sb d'.image)
    hpartway
  refine ⟨t, _, x, hmount', hrun'', hclean, hresumes, fun hfree key => ?_⟩
  refine (hresumes.get key).resolve_right ?_
  rintro ⟨s, ⟨hmem, hno⟩, -⟩
  exact hno (hpartway.dangling_subset hfits hfree hmem)

/-- Of a deduplicating volume with two slots only the superblock is there. The repair is cut after its
first write. -/
theorem repair_resumes_bare :
    (bareDevice ⟨2, true, by decide, by decide⟩).Reliable ∧
      ∃ v report u report' u', mount false (bareDevice ⟨2, true, by decide, by decide⟩) =
          .ok v (bareDevice ⟨2, true, by decide, by decide⟩) ∧
        checkVisiting id true v = .ok report u ∧ checkVisiting List.reverse true v = .ok report' u' ∧
        ∃ t again x, mount false (.ofImage (v.cut u' 1)) = .ok t (.ofImage (v.cut u' 1)) ∧
          checkVisiting id true t = .ok again x ∧ x.ChecksClean ∧ x.list = u.list := by
  have hr : (bareDevice ⟨2, true, by decide, by decide⟩).Reliable := Device.reliable_ofImage _
  obtain ⟨v, report, u, report', u', hmount, hrun, hrun', hall⟩ := repair_resumes hr (read_bareDevice _)
    ⟨id, fun _ => .refl _⟩ ⟨List.reverse, List.reverse_perm⟩
  obtain ⟨t, again, x, hmount', hagain, hclean, hresumes, -⟩ :=
    hall 1 (.ofImage (v.cut u' 1)) ⟨id, fun _ => .refl _⟩ (Device.reliable_ofImage _) rfl
  exact ⟨hr, v, report, u, report', u', hmount, hrun, hrun', t, again, x, hmount', hagain, hclean,
    hresumes.list⟩

end Volume

end BlockStore
