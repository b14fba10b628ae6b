import BlockStore.Proofs.Primitive

/-!
# Mounting an image

A device whose block 0 holds a superblock that fits can be attached, whatever else is on it, and memory
then agrees with it. So the image of a mounted volume, which is what a crash leaves of it, mounts as the
same view again.

## Main results

* `Volume.attach_cases`: the two outcomes on a device with a superblock that fits.
* `Volume.exists_of_attach`: only such a device can be attached.
* `Volume.Mounted.attach_cases`: remounting the image of a mounted volume.
-/

namespace BlockStore

namespace Superblock

/-- Block 0 lies on the device. -/
theorem Fits.holds_zero {d : Device} {sb : Superblock} (hfits : sb.Fits d.size) : d.Holds 0 :=
  hfits.covers (Nat.le_trans hfits.one_le_dataStart (Nat.le_add_right _ _))

/-- So does the bitmap. -/
theorem Fits.covers_bitmap {d : Device} {sb : Superblock} (hfits : sb.Fits d.size) :
    d.Covers sb.bitmapStart sb.bitmapBlocks := by
  have h1 := hfits.bitmap_le_keysStart
  have h2 := hfits.keys_le_dedupStart hfits.slots_pos
  have h3 := hfits.dedupStart_le_dataStart
  rw [Nat.zero_div] at h2
  exact hfits.covers (by omega)

theorem read_cases {d : Device} {sb : Superblock} (hstored : decode (d.image.block 0).bytes = .ok sb)
    (hfits : sb.Fits d.size) :
    read d = .ok sb ∨ (∃ e, read d = .error e) ∧ ¬ d.Reliable := by
  rcases Device.readBlock_eq hfits.holds_zero with hok | ⟨⟨e, herror⟩, hr⟩
  · left
    simp only [read, hok, bind, Except.bind, hstored, validate_eq_ok_iff.2 hfits, pure, Except.pure]
  · right
    exact ⟨⟨.device e, by simp only [read, herror, bind, Except.bind]⟩, hr⟩

/-- What is read from a device is stored on it and fits. -/
theorem of_read {d : Device} {sb : Superblock} (h : read d = .ok sb) :
    decode (d.image.block 0).bytes = .ok sb ∧ sb.Fits d.size := by
  simp only [read, bind, Except.bind] at h
  cases hread : d.readBlock 0 with
  | error e => simp [hread] at h
  | ok b =>
    have hb : b = d.image.block 0 := by
      rw [Device.readBlock] at hread
      split at hread
      · exact (Except.ok.inj hread).symm
      · cases hread
    simp only [hread] at h
    rw [← hb]
    cases hdecode : decode b.bytes with
    | error fault => simp [hdecode, throw, throwThe, MonadExceptOf.throw] at h
    | ok sb' =>
      simp only [hdecode] at h
      cases hvalid : sb'.validate d.size with
      | error fault => simp [hvalid, throw, throwThe, MonadExceptOf.throw] at h
      | ok =>
        simp only [hvalid, pure, Except.pure, Except.ok.injEq] at h
        subst h
        exact ⟨rfl, validate_eq_ok_iff.1 hvalid⟩

end Superblock

namespace Allocator

variable {d : Device} {offset slots : Nat}

theorem read_eq_ok {bitmap : ByteArray}
    (h : d.read (offset / blockSize) (bitmapSize slots / blockSize) = .ok bitmap) :
    read d offset slots = .ok (load offset bitmap slots) := by
  rw [read, h]

theorem read_eq_error {e : DeviceError}
    (h : d.read (offset / blockSize) (bitmapSize slots / blockSize) = .error e) :
    read d offset slots = .error (.device e) := by
  rw [read, h]

end Allocator

namespace Volume

variable {d : Device} {sb : Superblock}

/-- The slots whose bit is clear, in order. -/
def clearSlots (sb : Superblock) (w : View) : List Nat :=
  (List.range sb.slots).filter fun s => !w.used s

/-- Nothing is in use on an empty volume. -/
@[simp] theorem clearSlots_blank (sb : Superblock) : clearSlots sb .blank = List.range sb.slots :=
  List.filter_eq_self.2 fun _ _ => rfl

theorem sorted_clearSlots (sb : Superblock) (w : View) : (clearSlots sb w).Pairwise (· < ·) :=
  List.pairwise_lt_range.filter _

/-- The free list has these slots in some order. -/
theorem Shows.free_perm {r : Prop} {v : Volume} {w : View} {free : List Nat}
    (h : v.Shows sb r w free) : (clearSlots sb w).Perm free := by
  refine (List.perm_ext_iff_of_nodup (List.nodup_range.filter _) h.nodup).2 fun s => ?_
  rw [h.mem_free]
  simp

theorem load_eq (d : Device) (sb : Superblock) :
    Allocator.load sb.bitmapOffset.toNat (sb.bitmapOf d.image) sb.slots =
      ⟨sb.bitmapStart, sb.slots, sb.bitmapOf d.image, clearSlots sb (sb.view d.image)⟩ := by
  have hfit : fit (sb.bitmapOf d.image) (Allocator.bitmapSize sb.slots) = sb.bitmapOf d.image :=
    fit_of_size_eq (Superblock.size_bitmapOf sb d.image)
  have hfree : ((List.range sb.slots).filter fun s => !testSlot (sb.bitmapOf d.image) s) =
      clearSlots sb (sb.view d.image) := by
    refine List.filter_congr ?_
    intro s hs
    simp [Superblock.view, List.mem_range.1 hs]
  rw [Allocator.load, hfit, hfree]
  rfl

theorem shows_load {a : Allocator} (hstored : Superblock.decode (d.image.block 0).bytes = .ok sb)
    (hfits : sb.Fits d.size)
    (ha : a = ⟨sb.bitmapStart, sb.slots, sb.bitmapOf d.image, clearSlots sb (sb.view d.image)⟩) :
    Shows ⟨d, sb, a⟩ sb d.Reliable (sb.view d.image) (clearSlots sb (sb.view d.image)) := by
  subst ha
  refine ⟨⟨hfits, hstored, rfl, rfl, rfl, List.nodup_range.filter _, fun {s} => ?_⟩, rfl, Iff.rfl, rfl,
    rfl⟩
  simp [clearSlots]

/-- A device with a superblock that fits can be attached, unless it is not reliable. -/
theorem attach_cases (hstored : Superblock.decode (d.image.block 0).bytes = .ok sb)
    (hfits : sb.Fits d.size) :
    (∃ v, attach d = .ok v ∧ v.device = d ∧
        v.Shows sb d.Reliable (sb.view d.image) (clearSlots sb (sb.view d.image))) ∨
      (∃ e, attach d = .error e) ∧ ¬ d.Reliable := by
  rcases Superblock.read_cases hstored hfits with hsb | ⟨⟨e, he⟩, hr⟩
  · rcases Device.read_eq hfits.covers_bitmap with hok | ⟨⟨e, herror⟩, hr⟩
    · left
      have hread := Allocator.read_eq_ok hok
      refine ⟨⟨d, sb, _⟩, ?_, rfl, shows_load hstored hfits (load_eq d sb)⟩
      simp only [attach, hsb, hread, bind, Except.bind, pure, Except.pure]
      rfl
    · right
      have hread := Allocator.read_eq_error herror
      exact ⟨⟨.device e, by simp only [attach, hsb, hread, bind, Except.bind]⟩, hr⟩
  · right
    exact ⟨⟨e, by simp only [attach, he, bind, Except.bind]⟩, hr⟩

/-- Only a device with a superblock that fits can be attached. -/
theorem exists_of_attach {v : Volume} (h : attach d = .ok v) :
    ∃ sb, Superblock.decode (d.image.block 0).bytes = .ok sb ∧ sb.Fits d.size := by
  cases hread : Superblock.read d with
  | error e => simp [attach, hread, bind, Except.bind] at h
  | ok sb => exact ⟨sb, Superblock.of_read hread⟩

theorem mountVisiting_of_attach {visit : List SharedBlock → List SharedBlock} {v : Volume}
    (h : attach d = .ok v) : mountVisiting visit false d = .ok v d := by
  simp [mountVisiting, h]

theorem mountVisiting_of_check {visit : List SharedBlock → List SharedBlock} {v u : Volume}
    {report : CheckReport} (h : attach d = .ok v) (hrun : checkVisiting visit true v = .ok report u) :
    mountVisiting visit true d = .ok u u.device := by
  simp [mountVisiting, h, hrun]

/-- A volume that is mounted was attached, and then repaired if that was asked for. -/
theorem attached_of_mountVisiting {visit : List SharedBlock → List SharedBlock} {repair : Bool}
    {u : Volume} {d' : Device} (h : mountVisiting visit repair d = .ok u d') :
    ∃ v, attach d = .ok v ∧ if repair then ∃ report, checkVisiting visit true v = .ok report u else u = v := by
  rw [mountVisiting] at h
  cases hattach : attach d with
  | error e => simp [hattach] at h
  | ok v =>
    refine ⟨v, rfl, ?_⟩
    simp only [hattach] at h
    cases repair with
    | false =>
      cases h
      exact rfl
    | true =>
      cases hrun : checkVisiting visit true v with
      | error e t => simp [hrun] at h
      | ok report t =>
        simp only [hrun, if_true] at h
        cases h
        exact ⟨report, rfl⟩

/-- Only such a device can be mounted, with or without repair. -/
theorem exists_of_mountVisiting {visit : List SharedBlock → List SharedBlock} {repair : Bool}
    {u : Volume} {d' : Device} (h : mountVisiting visit repair d = .ok u d') :
    ∃ sb, Superblock.decode (d.image.block 0).bytes = .ok sb ∧ sb.Fits d.size := by
  obtain ⟨v, hattach, -⟩ := attached_of_mountVisiting h
  exact exists_of_attach hattach

/-- An attached device keeps its contents, and memory agrees with it. -/
theorem shows_of_attach {v : Volume} (h : attach d = .ok v)
    (hstored : Superblock.decode (d.image.block 0).bytes = .ok sb) (hfits : sb.Fits d.size) :
    v.device = d ∧ v.Shows sb d.Reliable (sb.view d.image) (clearSlots sb (sb.view d.image)) := by
  rcases attach_cases hstored hfits with ⟨u, hu, hdevice, hshows⟩ | ⟨⟨e, he⟩, -⟩
  · rw [h] at hu
    cases hu
    exact ⟨hdevice, hshows⟩
  · rw [h] at he
    cases he

/-- The image of a mounted volume on any device. -/
theorem Mounted.stored_on {v : Volume} (h : v.Mounted) (himage : d.image = v.device.image) :
    Superblock.decode (d.image.block 0).bytes = .ok v.superblock ∧ v.superblock.Fits d.size := by
  have hsize : d.size = v.device.size := by
    rw [Device.size, himage]
    rfl
  rw [himage, hsize]
  exact ⟨h.stored, h.fits⟩

/-- The superblock of a volume can be read again. -/
theorem Shows.read_eq {r : Prop} {v : Volume} {w : View} {free : List Nat} (h : v.Shows sb r w free)
    (hr : r) : Superblock.read v.device = .ok sb := by
  obtain ⟨hstored, hfits⟩ := h.mounted.stored_on (d := v.device) rfl
  rw [h.superblock] at hstored hfits
  exact (Superblock.read_cases hstored hfits).resolve_right fun hno => hno.2 (h.reliable.2 hr)

end Volume

end BlockStore
