import BlockStore.Proofs.Clocks
import BlockStore.Proofs.DryRun
import BlockStore.Proofs.Occupancy

/-!
# Mounting for every call

A volume that is mounted again for every call is another volume than one that stays mounted: its free list
is in order each time, so that other slots are taken. What it answers is the same nevertheless, for that is
a matter of the map, and so is how many slots are free.

As long as no transfer fails there is nothing to be found on the image, so a repair before a call changes
nothing, and neither does a check between two calls. The next call finds the same image, and therefore takes
the same slots. Two such histories of a file differ in the times of their calls only.

## Main definitions

* `Superblock.Hosts`: an image on which nothing is amiss.
* `Superblock.Stores`: a map, and blocks that satisfy a condition, are stored on an image.
* `Superblock.Matches`: two images that differ in timestamps only.
* `Volume.Opened`: a volume that has just been mounted.

## Main results

* `Volume.exists_opened`: such an image can be mounted, and a repair leaves it alone.
* `Volume.Opened.hosts_after`, `Opened.answers`: one call on a volume that was mounted for it.
* `Superblock.Matches.reply_eq`, `Matches.after`: one call on two images that differ in timestamps only.
-/

namespace BlockStore

/-- The report that there is nothing to be found. -/
def CheckReport.clean (repaired : Bool) : CheckReport := ⟨[], [], [], [], [], [], [], repaired⟩

theorem CheckReport.eq_clean {report : CheckReport} (h : report.isClean) :
    report = .clean report.repaired := by
  obtain ⟨leaked, unmarked, invalid, duplicate, dangling, bad, fixes, repaired⟩ := report
  simpa [isClean, clean, and_assoc] using h

/-- The call at one and the same time. -/
def Call.timeless : Call → Call
  | .create key _ => .create key ⟨0⟩
  | .put key data _ _ => .put key data ⟨0⟩ ⟨0⟩
  | c => c

namespace Superblock

/-- Nothing is amiss on the image: it holds a volume with this superblock on which no transfer has failed,
and whose keys have all been given values if it deduplicates. -/
structure Hosts (sb : Superblock) (im : Image) : Prop where
  stored : decode (im.block 0).bytes = .ok sb
  fits : sb.Fits im.size
  size_lt : im.size < 1 <<< 63
  exact : (sb.view im).Exact sb
  given : sb.isDedup → ∀ s, ¬ (sb.view im).Bare s
  capacity : sb.isDedup → sb.slots ≤ sb.dedupCapacity

/-- The map is stored on the image, and the blocks that are shared there satisfy `P`. -/
structure Stores (sb : Superblock) (P : Block → Prop) (im : Image) (M : KeyMap) : Prop where
  sound : (sb.view im).Sound sb P fun _ => 0
  contents : (sb.view im).contents sb = M

/-- Nothing is amiss on the two images, and they differ in timestamps only. -/
structure Matches (sb : Superblock) (im im' : Image) : Prop where
  left : sb.Hosts im
  right : sb.Hosts im'
  margin : sb.SameMargin im im'
  view : (sb.view im).UpToTimes (sb.view im')

theorem Hosts.matches_self {sb : Superblock} {im : Image} (h : sb.Hosts im) : sb.Matches im im :=
  ⟨h, h, .refl sb im, .refl _⟩

end Superblock

namespace Volume

variable {sb : Superblock} {r : Prop} {P : Block → Prop} {im im' : Image} {v v' u u' : Volume} {w : View}
  {free : List Nat} {c c' : Call} {M : KeyMap}

/-- The volume has just been mounted on a file with this image, and nothing has been written. -/
structure Opened (sb : Superblock) (im : Image) (v : Volume) : Prop where
  shows : v.Shows sb True (sb.view im) (clearSlots sb (sb.view im))
  image : v.device.image = im
  log : v.device.log = #[]

/-! ### Mounting -/

/-- Where there is nothing to be found a check reports so and leaves everything alone, the free list
included. -/
theorem Shows.check_idle (h : v.Shows sb r w free) (hr : r) (hw : w.Tidy sb) (repair : Bool) :
    ∃ u, check repair v = .ok (.clean repair) u ∧ u.Shows sb r w free ∧
      u.device.image = v.device.image ∧ u.device.log = v.device.log := by
  have hid : ∀ l : List SharedBlock, (id l).Perm l := fun l => .refl l
  have hnone : ∀ u, ¬ Passes sb r (fun _ => False) u := by
    rintro u ⟨_, _, _, hfalse⟩
    exact hfalse
  obtain ⟨u, free', hrun, htrail, hu⟩ := h.check_eq hr hid repair (C := fun _ => False)
    (by rw [hw.repairs_eq_nil hid, ite_self]; trivial)
  obtain ⟨-, hallocator, himage⟩ := htrail.idle hnone
  have hlog := htrail.log_eq
  rw [htrail.writesSince_eq_nil hnone, List.append_nil] at hlog
  rw [View.repaired, hw.repairs_eq_nil hid, View.after_nil, ite_self] at hu
  obtain rfl : free' = free := hu.free.symm.trans ((congrArg Allocator.free hallocator).trans h.free)
  refine ⟨u, ?_, hu, himage, Array.toList_inj.1 hlog⟩
  rw [check, hrun, CheckReport.eq_clean (hw.isClean_report hid repair)]
  rfl

/-- The image can be mounted, and with a repair as without one nothing is written. -/
theorem exists_opened (h : sb.Hosts im) (limit : Nat) (repair : Bool) :
    ∃ v, mount repair (.ofFile limit im) = .ok v v.device ∧ v.Opened sb im := by
  have hreliable : (Device.ofFile limit im).Reliable := ⟨rfl, fun _ => h.size_lt⟩
  rcases attach_cases (d := .ofFile limit im) h.stored h.fits with ⟨v, hattach, hdevice, hv⟩ | ⟨-, hr⟩
  · have hv : v.Shows sb True (sb.view im) (clearSlots sb (sb.view im)) :=
      ⟨hv.mounted, hv.superblock, hv.reliable.trans (iff_true_intro hreliable), hv.view, hv.free⟩
    have himage : v.device.image = im := congrArg Device.image hdevice
    have hlog : v.device.log = #[] := congrArg Device.log hdevice
    cases repair with
    | false => exact ⟨v, hdevice.symm ▸ mountVisiting_of_attach hattach, hv, himage, hlog⟩
    | true =>
      obtain ⟨u, hrun, hu, himage', hlog'⟩ := hv.check_idle trivial (h.exact.tidy h.fits) true
      rw [check] at hrun
      exact ⟨u, mountVisiting_of_check hattach hrun, hu, himage'.trans himage, hlog'.trans hlog⟩
  · exact absurd hreliable hr

/-! ### One call -/

/-- A call and an operation that come down to one action. -/
theorem after_eq {α : Type} {act : VolumeM α} {o : Operation} (hc : c.run = act >>= fun _ => pure .done)
    (ho : o.run = act >>= fun _ => pure ()) (v : Volume) : c.after v = o.after v := by
  rw [Call.after, Operation.after, hc, ho]
  simp only [bind, EStateM.bind]
  cases act v <;> rfl

/-- What a call does to a volume is what an operation does, or nothing. -/
theorem after_cases (c : Call) (v : Volume) :
    (∃ o : Operation, c.after v = o.after v) ∨ c.after v = v := by
  cases c with
  | create key now => exact .inl ⟨.create key now, after_eq rfl rfl v⟩
  | put key data created stored => exact .inl ⟨.put key data created stored, after_eq rfl rfl v⟩
  | remove key => exact .inl ⟨.remove key, after_eq rfl bind_pure_unit.symm v⟩
  | rename old new => exact .inl ⟨.rename old new, after_eq rfl bind_pure_unit.symm v⟩
  | get key => exact .inr (reply_of_query v rfl).2
  | contains key => exact .inr (reply_of_query v rfl).2
  | list => exact .inr (reply_of_query v rfl).2

/-- All that a call does to a mounted volume is edits. -/
theorem Shows.edited_after (h : v.Shows sb r w free) (c : Call) : Edited sb v (c.after v) := by
  rcases after_cases c v with ⟨o, ho⟩ | hsame
  · rw [ho]
    exact h.seated.edited_after o
  · rw [hsame]
    exact .refl

theorem Shows.exact_after (h : v.Shows sb True w free) (hw : w.Exact sb) (c : Call) :
    Passes sb True (View.Exact sb) (c.after v) := by
  rcases after_cases c v with ⟨o, ho⟩ | hsame
  · rw [ho]
    exact exact_operation h hw o
  · rw [hsame]
    exact h.passes hw

/-- Without a write the image is as it was. -/
theorem Edited.image_eq_or_log (h : Edited sb v u) :
    u.device.image = v.device.image ∨ v.device.log.size < u.device.log.size := by
  have hle : u.device.image = v.device.image ∧ u.device.log.size = v.device.log.size ∨
      v.device.log.size < u.device.log.size := by
    induction h with
    | refl => exact .inl ⟨rfl, rfl⟩
    | tick _ ih => exact ih
    | @edit u n b a _ _ ih =>
      have hpush : (u.wrote n b a).device.log.size = u.device.log.size + 1 := Array.size_push _
      right
      omega
  exact hle.imp_left fun h => h.1

/-- A call leaves an image on which nothing is amiss. -/
theorem Opened.hosts_after (hv : v.Opened sb im) (h : sb.Hosts im) (hc : ∀ key now, c ≠ .create key now) :
    sb.Hosts (c.after v).device.image := by
  obtain ⟨w, free, hu, hw⟩ := hv.shows.exact_after h.exact c
  have hmargin := (hv.shows.edited_after c).sameMargin hv.shows.seated
  rw [hv.image] at hmargin
  refine ⟨hu.superblock ▸ hu.mounted.stored, hu.superblock ▸ hu.mounted.fits, hmargin.size ▸ h.size_lt,
    hu.view.symm ▸ hw, fun hd s hs => ?_, h.capacity⟩
  rw [hu.view] at hs
  exact h.given hd s (hv.shows.bare_after h.exact hd hc hu hs)

/-- A call is answered as the map answers it, and leaves an image that stores the map after it. -/
theorem Opened.answers (hv : v.Opened sb im) (h : sb.Hosts im) (hM : sb.Stores P im M)
    (hP : sb.isDedup → Distinct P) {cs : List Call} (hblocks : ∀ b ∈ Call.blocks (c :: cs), P b) :
    ∃ n M', M.Occupies sb.isDedup n ∧ M.Answers sb.isDedup (sb.slots - n) c (c.reply v) M' ∧
      sb.Stores P (c.after v).device.image M' := by
  obtain ⟨n, hn, hfree⟩ := hv.shows.exists_occupies h.exact h.given
  have hrep : Represents sb P v M := ⟨_, _, hv.shows, hM.sound, hM.contents⟩
  obtain ⟨M', hanswer, w, free, hu, hw, hmap⟩ := hrep.step hP h.capacity hblocks
  rw [hM.contents] at hn
  rw [hfree] at hanswer
  exact ⟨n, M', hn, hanswer, hu.view.symm ▸ hw, hu.view.symm ▸ hmap⟩

/-! ### The same call at two times -/

/-- Actions that do the same make calls that are answered alike. -/
theorem reply_of_paces {α : Type} {act act' : VolumeM α} {Q : α → Prop} (h : Paces sb act act' v v' Q)
    (hc : c.run = act >>= fun _ => pure .done) (hc' : c'.run = act' >>= fun _ => pure .done) :
    c'.reply v' = c.reply v ∧ Abreast sb (c.after v) (c'.after v') := by
  cases h with
  | ok hrun hrun' _ h =>
    obtain ⟨hreply, hafter⟩ := reply_of_ok hc hrun
    obtain ⟨hreply', hafter'⟩ := reply_of_ok hc' hrun'
    rw [hreply, hreply', hafter, hafter']
    exact ⟨rfl, h⟩
  | error hrun hrun' h =>
    obtain ⟨hreply, hafter⟩ := reply_of_error hc hrun
    obtain ⟨hreply', hafter'⟩ := reply_of_error hc' hrun'
    rw [hreply, hreply', hafter, hafter']
    exact ⟨rfl, h⟩

theorem Abreast.query (h : Abreast sb v v') {f : Volume → Except StoreError Reply}
    (hc : c.run = BlockStore.query f) (hf : f v' = f v) :
    c.reply v' = c.reply v ∧ Abreast sb (c.after v) (c.after v') := by
  obtain ⟨hreply, hafter⟩ := reply_of_query v hc
  obtain ⟨hreply', hafter'⟩ := reply_of_query v' hc
  rw [hreply, hreply', hafter, hafter', hf]
  exact ⟨rfl, h⟩

end Volume

namespace Superblock.Matches

variable {sb : Superblock} {im im' : Image} {v v' : Volume} {c c' : Call}

theorem abreast (h : sb.Matches im im') (hv : v.Opened sb im) (hv' : v'.Opened sb im') :
    Volume.Abreast sb v v' := by
  have hallocator {u : Volume} {i : Image} (hu : u.Opened sb i) : u.allocator =
      ⟨sb.bitmapStart, sb.slots, sb.bitmapOf i, Volume.clearSlots sb (sb.view i)⟩ := by
    have hseated := hu.shows.seated
    rw [← hseated.start, ← hseated.slots, ← hu.image, ← hseated.bitmap, hu.image, ← hu.shows.free]
  have hclear : Volume.clearSlots sb (sb.view im') = Volume.clearSlots sb (sb.view im) := by
    rw [Volume.clearSlots, Volume.clearSlots, h.view.used]
  have hsteady {u : Volume} {i : Image} (hi : sb.Hosts i) (hu : u.Opened sb i) : u.Steady sb :=
    ⟨hu.shows.seated, hu.image.symm ▸ hi.stored, hu.shows.reliable.2 trivial⟩
  refine ⟨hsteady h.left hv, hsteady h.right hv', ?_, ?_⟩
  · rw [hallocator hv, hallocator hv', h.margin.bitmapOf_eq h.view.used, hclear]
  · rw [hv.image, hv'.image]
    exact h.view

/-- The same call at two times, on volumes that were mounted for it. -/
theorem step (h : sb.Matches im im') (hv : v.Opened sb im) (hv' : v'.Opened sb im')
    (hc : c.timeless = c'.timeless) :
    c'.reply v' = c.reply v ∧ Volume.Abreast sb (c.after v) (c'.after v') := by
  have hab := h.abreast hv hv'
  have hcontents := h.view.contents_eq sb
  cases c with
  | create key now =>
    cases c' with
    | create key' now' =>
      cases hc
      exact Volume.reply_of_paces (Volume.paces_create hab key now now') rfl rfl
    | _ => cases hc
  | put key data created stored =>
    cases c' with
    | put key' data' created' stored' =>
      cases hc
      exact Volume.reply_of_paces (Volume.paces_put hab key data created created' stored stored') rfl rfl
    | _ => cases hc
  | remove key =>
    cases c' with
    | remove key' =>
      cases hc
      exact Volume.reply_of_paces (Volume.paces_remove hab key) rfl rfl
    | _ => cases hc
  | rename old new =>
    cases c' with
    | rename old' new' =>
      cases hc
      exact Volume.reply_of_paces (Volume.paces_rename hab old new) rfl rfl
    | _ => cases hc
  | get key =>
    cases c' with
    | get key' =>
      cases hc
      refine hab.query rfl ?_
      rw [hv.shows.get_eq trivial h.left.exact.sound, hv'.shows.get_eq trivial h.right.exact.sound, hcontents]
    | _ => cases hc
  | contains key =>
    cases c' with
    | contains key' =>
      cases hc
      refine hab.query rfl ?_
      rw [hab.contains_eq]
    | _ => cases hc
  | list =>
    cases c' with
    | list =>
      refine hab.query rfl ?_
      rw [hv.shows.list_eq trivial, hv'.shows.list_eq trivial, h.view.keyList_eq]
    | _ => cases hc

/-- Afterwards the two images differ in timestamps only again. -/
theorem after (h : sb.Matches im im') (hv : v.Opened sb im) (hv' : v'.Opened sb im')
    (hc : c.timeless = c'.timeless) (hcreate : ∀ key now, c ≠ .create key now)
    (hcreate' : ∀ key now, c' ≠ .create key now) :
    sb.Matches (c.after v).device.image (c'.after v').device.image := by
  have hmargin := (hv.shows.edited_after c).sameMargin hv.shows.seated
  have hmargin' := (hv'.shows.edited_after c').sameMargin hv'.shows.seated
  rw [hv.image] at hmargin
  rw [hv'.image] at hmargin'
  exact ⟨hv.hosts_after h.left hcreate, hv'.hosts_after h.right hcreate',
    hmargin.symm.trans (h.margin.trans hmargin'), (h.step hv hv' hc).2.view⟩

end Superblock.Matches

end BlockStore
