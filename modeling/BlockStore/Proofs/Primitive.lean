import BlockStore.Proofs.Trail
import BlockStore.Proofs.Undoing

/-!
# The primitive changes of a volume

Every operation is put together from a few actions that write one block each. What each of them does
to the view is said here once; when it fails, the view is as before and the device is not reliable,
except that no slot may be left.

## Main results

* `Volume.runs_writeData`, `runs_writeKey`, `runs_writeShared`: one data block, one key entry, one
  dedup entry.
* `Volume.runs_assign`, `runs_acquire`, `runs_release`, `runs_markUsed`: one bit, and the free list with it.
* `Volume.runs_readPointer`: the pointer in a data block.
-/

namespace BlockStore

namespace Volume

variable {sb : Superblock} {r : Prop} {C : View → Prop} {v u : Volume} {w : View} {free : List Nat}

/-! ### One block -/

theorem Shows.fits (h : v.Shows sb r w free) : sb.Fits v.device.size := h.superblock ▸ h.mounted.fits

theorem Shows.holds (h : v.Shows sb r w free) {b : Nat} (hb : b < sb.dataStart + sb.slots) :
    v.device.Holds b := h.fits.covers hb

theorem Shows.mem_free (h : v.Shows sb r w free) {s : Nat} :
    s ∈ free ↔ s < sb.slots ∧ w.used s = false := by
  have := h.mounted.mem_free (s := s)
  rwa [h.free, h.superblock, h.view] at this

theorem Shows.nodup (h : v.Shows sb r w free) : free.Nodup := h.free ▸ h.mounted.nodup

theorem Shows.bitmap_eq (h : v.Shows sb r w free) :
    v.allocator.bitmap = sb.bitmapOf v.device.image := by
  rw [h.mounted.bitmap, h.superblock]

theorem Shows.isUsed_eq (h : v.Shows sb r w free) (s : Nat) : v.allocator.isUsed s = w.used s := by
  have hslots : v.allocator.slots = sb.slots := h.superblock ▸ h.mounted.slots
  rw [Allocator.isUsed, hslots, h.bitmap_eq, ← h.view]
  rfl

theorem Shows.testSlot_eq (h : v.Shows sb r w free) {s : Nat} (hs : s < sb.slots) :
    testSlot (sb.bitmapOf v.device.image) s = w.used s := by
  simp [← h.view, Superblock.view, hs]

theorem Shows.freeCount_eq (h : v.Shows sb r w free) : v.freeCount = free.length := by
  rw [freeCount, Allocator.freeCount, h.free]

/-- A write behind block 0 whose effect on the view and on the bitmap is known. -/
theorem Shows.wrote (h : v.Shows sb r w free) {b : Nat} {x : Block} {a : Allocator} {w' : View}
    (hb : 1 ≤ b) (hlt : b < sb.dataStart + sb.slots)
    (hview : sb.view (v.device.image.write b x.bytes) = w') (hstart : a.start = sb.bitmapStart)
    (hslots : a.slots = sb.slots)
    (hbitmap : a.bitmap = sb.bitmapOf (v.device.image.write b x.bytes)) (hnodup : a.free.Nodup)
    (hmem : ∀ {s}, s ∈ a.free ↔ s < sb.slots ∧ w'.used s = false) :
    (v.wrote b x a).Shows sb r w' a.free := by
  have hh := h.holds hlt
  have hsb := h.superblock
  subst hsb
  refine ⟨⟨?_, ?_, hstart, hslots, hbitmap, hnodup, ?_⟩, rfl, ?_, hview, rfl⟩
  · change v.superblock.Fits (v.device.wrote b x).size
    rw [hh.size_wrote]
    exact h.fits
  · change Superblock.decode ((v.device.image.write b x.bytes).block 0).bytes = _
    rw [Image.block_write_bytes, if_neg (by omega)]
    exact h.mounted.stored
  · intro s
    change s ∈ a.free ↔ s < v.superblock.slots ∧
      (v.superblock.view (v.device.image.write b x.bytes)).used s = false
    rw [hmem, hview]
  · exact (hh.reliable_wrote x).trans h.reliable

/-- A write behind the bitmap leaves the free list alone. -/
theorem Shows.wrote_data (h : v.Shows sb r w free) {b : Nat} {x : Block} {w' : View}
    (hb : sb.keysStart ≤ b) (hlt : b < sb.dataStart + sb.slots)
    (hview : sb.view (v.device.image.write b x.bytes) = w') (hused : w'.used = w.used) :
    (v.wrote b x v.allocator).Shows sb r w' free := by
  have h1 := h.fits.one_le_bitmapStart
  have h2 := h.fits.bitmap_le_keysStart
  have hbitmap : sb.bitmapOf (v.device.image.write b x.bytes) = sb.bitmapOf v.device.image :=
    Image.read_write_of_disjoint (.inr (by omega))
  have hstart : v.allocator.start = sb.bitmapStart := h.superblock ▸ h.mounted.start
  have hslots : v.allocator.slots = sb.slots := h.superblock ▸ h.mounted.slots
  have hall := h.wrote (a := v.allocator) (by omega) hlt hview hstart hslots
    (by rw [hbitmap, h.bitmap_eq]) h.mounted.nodup (by intro s; rw [h.free, h.mem_free, hused])
  rwa [h.free] at hall

/-- One block write: it is done, or the device is not reliable. -/
theorem runs_writeBlock (h : v.Shows sb r w free) {b : Nat} {x : Block} {w' : View}
    {free' : List Nat} (hlt : b < sb.dataStart + sb.slots)
    (hdone : (v.wrote b x v.allocator).Shows sb r w' free') (hC : C w') :
    Runs sb r C (onDevice (Device.writeBlock b x)) v (fun _ u => u.Shows sb r w' free')
      (fun _ u => u.Shows sb r w free ∧ ¬ r) := by
  unfold Runs onDevice
  rcases Device.writeBlock_eq (h.holds hlt) x with hok | ⟨⟨e, herror⟩, hr⟩
  · simp only [hok]
    exact ⟨.write .refl b x v.allocator (hdone.passes hC), hdone⟩
  · simp only [herror]
    exact ⟨.tick .refl, h.tick, fun hr' => hr (h.reliable.2 hr')⟩

theorem Shows.readBlock_eq (h : v.Shows sb r w free) {b : Nat} (hlt : b < sb.dataStart + sb.slots) :
    v.device.readBlock b = .ok (v.device.image.block b) ∨
      (∃ e, v.device.readBlock b = .error (.device e)) ∧ ¬ r :=
  (Device.readBlock_eq (h.holds hlt)).imp_right fun ⟨he, hr⟩ => ⟨he, fun hr' => hr (h.reliable.2 hr')⟩

theorem runs_readBlock (h : v.Shows sb r w free) {b : Nat} (hlt : b < sb.dataStart + sb.slots) :
    Runs sb r C (look fun v => v.device.readBlock b) v
      (fun x u => x = v.device.image.block b ∧ u = v.tick) (fun _ u => u.Shows sb r w free ∧ ¬ r) :=
  (Runs.look_eq (h.readBlock_eq hlt)).mono (fun _ _ hq => hq) fun _ _ he => ⟨he.1 ▸ h.tick, he.2⟩

/-! ### Data blocks and table entries -/

theorem Shows.dataBlock_lt (_h : v.Shows sb r w free) {s : Nat} (hs : s < sb.slots) :
    sb.dataBlock s < sb.dataStart + sb.slots := by
  rw [Superblock.dataBlock]
  omega

theorem Shows.data_eq (h : v.Shows sb r w free) {s : Nat} (hs : s < sb.slots) :
    v.device.image.block (sb.dataBlock s) = w.data s := by
  rw [← h.view]
  simp [Superblock.view, hs]

theorem runs_writeData (h : v.Shows sb r w free) {s : Nat} (hs : s < sb.slots) {b : Block}
    (hC : C (w.setData s b)) :
    Runs sb r C (writeData s b) v (fun _ u => u.Shows sb r (w.setData s b) free)
      (fun _ u => u.Shows sb r w free ∧ ¬ r) := by
  have h2 := h.fits.keys_le_dedupStart h.fits.slots_pos
  have h3 := h.fits.dedupStart_le_dataStart
  rw [Nat.zero_div] at h2
  have hdone : (v.wrote (sb.dataBlock s) b v.allocator).Shows sb r (w.setData s b) free :=
    h.wrote_data (by rw [Superblock.dataBlock]; omega) (h.dataBlock_lt hs)
      (by rw [Superblock.view_writeData _ h.fits hs, h.view]) rfl
  have hact : writeData s b v = onDevice (Device.writeBlock (sb.dataBlock s) b) v := by
    rw [← h.superblock]
    rfl
  unfold Runs
  rw [hact]
  exact runs_writeBlock h (h.dataBlock_lt hs) hdone hC

theorem Shows.readPointer_eq (h : v.Shows sb r w free) {s : Nat} (hs : s < sb.slots) :
    v.readPointer s = .ok (w.pointer s) ∨ (∃ e, v.readPointer s = .error (.device e)) ∧ ¬ r := by
  rw [readPointer, h.superblock]
  rcases h.readBlock_eq (h.dataBlock_lt hs) with hok | ⟨⟨e, herror⟩, hr⟩
  · left
    rw [hok, h.data_eq hs, View.pointer, pointer]
    rfl
  · right
    rw [herror]
    exact ⟨⟨e, rfl⟩, hr⟩

theorem runs_readPointer (h : v.Shows sb r w free) {s : Nat} (hs : s < sb.slots) :
    Runs sb r C (look (·.readPointer s)) v
      (fun p u => p = w.pointer s ∧ u.Shows sb r w free)
      (fun _ u => u.Shows sb r w free ∧ ¬ r) :=
  (Runs.look_eq (h.readPointer_eq hs)).mono (fun _ _ hq => ⟨hq.1, hq.2 ▸ h.tick⟩)
    fun _ _ he => ⟨he.1 ▸ h.tick, he.2⟩

theorem onDevice_bind {α β : Type} (act : DeviceM α) (f : α → DeviceM β) :
    onDevice (act >>= f) = onDevice act >>= fun a => onDevice (f a) := by
  funext v
  simp only [onDevice, Bind.bind, EStateM.bind]
  cases act v.device <;> rfl

theorem onDevice_look {α : Type} (f : Device → Except StoreError α) :
    onDevice (Device.look f) = look fun v => f v.device := by
  funext v
  simp only [onDevice, Device.look, look]
  cases f v.device <;> rfl

/-- Replacing one record of a table: its block is read, and written back with the record. -/
theorem runs_writeRecord (h : v.Shows sb r w free) {t : RecordTable} {i : Nat} {rec : Record}
    {w' : View} (hlt : t.blockOf i < sb.dataStart + sb.slots) (hkeys : sb.keysStart ≤ t.blockOf i)
    (hview : sb.view (v.device.image.write (t.blockOf i)
      ((v.device.image.block (t.blockOf i)).setRecord (i % recordsPerBlock) rec).bytes) = w')
    (hused : w'.used = w.used) (hC : C w') :
    Runs sb r C (onDevice (t.write i rec)) v (fun _ u => u.Shows sb r w' free)
      (fun _ u => u.Shows sb r w free ∧ ¬ r) := by
  rw [RecordTable.write, onDevice_bind, onDevice_look]
  refine (runs_readBlock h hlt).bind ?_
  rintro _ _ ⟨rfl, rfl⟩
  exact runs_writeBlock h.tick hlt (h.tick.wrote_data hkeys hlt hview hused) hC

theorem Shows.keyTable_eq (h : v.Shows sb r w free) :
    v.keyTable = ⟨sb.keysStart, sb.slots⟩ := by
  rw [keyTable, h.superblock]
  rfl

/-- The entry of a slot that exists is a record of the table. -/
theorem onDevice_writeEntry {t : KeyTable} {s : Nat} (hs : s < t.slots) (e : KeyEntry) :
    onDevice (t.writeEntry s e) = onDevice (t.records.write s e.toRecord) := by
  have hdemand : onDevice (query fun _ => t.demandSlot s) = pure () := by
    funext v
    simp only [onDevice, query, KeyTable.demandSlot, if_pos hs]
    rfl
  rw [KeyTable.writeEntry, onDevice_bind, hdemand]
  rfl

theorem runs_writeKey (h : v.Shows sb r w free) {s : Nat} (hs : s < sb.slots) {e : KeyEntry}
    (hC : C (w.setKey s e)) :
    Runs sb r C (onDevice (KeyTable.writeEntry ⟨sb.keysStart, sb.slots⟩ s e)) v
      (fun _ u => u.Shows sb r (w.setKey s e) free) (fun _ u => u.Shows sb r w free ∧ ¬ r) := by
  have h2 := h.fits.keys_le_dedupStart hs
  have h3 := h.fits.dedupStart_le_dataStart
  rw [onDevice_writeEntry hs]
  refine runs_writeRecord h ?_ (Nat.le_add_right _ _) ?_ rfl hC
  · change sb.keysStart + s / recordsPerBlock < _
    omega
  · rw [← h.view]
    exact Superblock.view_writeKey _ h.fits hs e

theorem runs_writeShared (h : v.Shows sb r w free) {i : Nat} (hi : i < sb.dedupCapacity)
    {e : DedupEntry} (hC : C (w.setShared i e)) :
    Runs sb r C (onDevice (DedupTable.writeEntry ⟨sb.dedupStart, sb.dedupBlocks⟩ i e)) v
      (fun _ u => u.Shows sb r (w.setShared i e) free) (fun _ u => u.Shows sb r w free ∧ ¬ r) := by
  have h1 := h.fits.keys_le_dedupStart h.fits.slots_pos
  have h2 := h.fits.dedup_lt_dataStart hi
  have h3 := Nat.le_add_right sb.dedupStart (i / recordsPerBlock)
  rw [Nat.zero_div] at h1
  refine runs_writeRecord h ?_ ?_ ?_ rfl hC
  · change sb.dedupStart + i / recordsPerBlock < _
    omega
  · change sb.keysStart ≤ sb.dedupStart + i / recordsPerBlock
    omega
  · rw [← h.view]
    exact Superblock.view_writeShared _ h.fits hi e

/-! ### Bits and the free list -/

/-- The block that `assign` writes for a slot. -/
def bitmapBlock (bitmap : ByteArray) (s : Nat) : Block :=
  .ofBytes (bitmap.extract (s / 8 / blockSize * blockSize) ((s / 8 / blockSize + 1) * blockSize))

theorem bytes_bitmapBlock {bitmap : ByteArray} {s n : Nat} (hsize : bitmap.size = n * blockSize)
    (hs : s / 8 < bitmap.size) : (bitmapBlock bitmap s).bytes =
      bitmap.extract (s / 8 / blockSize * blockSize) ((s / 8 / blockSize + 1) * blockSize) := by
  rw [hsize] at hs
  have hk : s / 8 / blockSize < n := (Nat.div_lt_iff_lt_mul (by decide)).2 hs
  exact fit_of_size_eq (size_extract_block hsize hk)

/-- The contents of the block that is written for a bit of the bitmap on a device. -/
theorem bytes_bitmapBlock_bitmapOf (sb : Superblock) {s : Nat} (hs : s < sb.slots) (used : Bool)
    (im : Image) : (bitmapBlock (assignSlot (sb.bitmapOf im) s used) s).bytes =
      (assignSlot (sb.bitmapOf im) s used).extract
        (s / 8 / blockSize * blockSize) ((s / 8 / blockSize + 1) * blockSize) := by
  have hbyte : s / 8 < (sb.bitmapOf im).size := by
    rw [Superblock.size_bitmapOf]
    exact Superblock.div_lt_bitmapSize hs
  have hassigned := size_assignSlot (sb.bitmapOf im) s used
  refine bytes_bitmapBlock (n := sb.bitmapBlocks) ?_ (hassigned ▸ hbyte)
  rw [hassigned, Superblock.size_bitmapOf, Superblock.bitmapSize_eq]

/-- Changing one bit is writing the block that holds it. -/
theorem assign_apply {a : Allocator} {s : Nat} (hs : s < a.slots) {used : Bool}
    (hblock : (bitmapBlock (assignSlot a.bitmap s used) s).bytes =
      (assignSlot a.bitmap s used).extract
        (s / 8 / blockSize * blockSize) ((s / 8 / blockSize + 1) * blockSize)) (d : Device) :
    a.assign s used d =
      match Device.writeBlock (a.start + s / 8 / blockSize)
        (bitmapBlock (assignSlot a.bitmap s used) s) d with
      | .ok () d => .ok { a with bitmap := assignSlot a.bitmap s used } d
      | .error e d => .error e d := by
  rw [Device.writeBlock, hblock]
  simp only [Allocator.assign, if_pos hs, bind, EStateM.bind]
  cases Device.write _ _ d <;> rfl

theorem Shows.bitmapBlock_lt (h : v.Shows sb r w free) {s : Nat} (hs : s < sb.slots) :
    sb.bitmapStart + s / 8 / blockSize < sb.dataStart + sb.slots := by
  have h1 := h.fits.bitmap_le_keysStart
  have h2 := h.fits.keys_le_dedupStart h.fits.slots_pos
  have h3 := h.fits.dedupStart_le_dataStart
  have hbyte := Superblock.div_lt_bitmapSize hs
  rw [Superblock.bitmapSize_eq] at hbyte
  have hk : s / 8 / blockSize < sb.bitmapBlocks := (Nat.div_lt_iff_lt_mul (by decide)).2 hbyte
  rw [Nat.zero_div] at h2
  omega

/-- Changing one bit: the block that holds it is written, or the device is not reliable. -/
theorem Shows.assign_eq (h : v.Shows sb r w free) {s : Nat} (hs : s < sb.slots) (used : Bool) :
    (v.allocator.assign s used v.device =
        .ok { v.allocator with bitmap := assignSlot v.allocator.bitmap s used }
          (v.device.wrote (sb.bitmapStart + s / 8 / blockSize)
            (bitmapBlock (assignSlot v.allocator.bitmap s used) s))) ∨
      (∃ e, v.allocator.assign s used v.device = .error e v.device.tick) ∧ ¬ r := by
  have hblock := bytes_bitmapBlock_bitmapOf sb hs used v.device.image
  rw [← h.bitmap_eq] at hblock
  have hstart : v.allocator.start = sb.bitmapStart := h.superblock ▸ h.mounted.start
  have hslots : v.allocator.slots = sb.slots := h.superblock ▸ h.mounted.slots
  have hwrite := Device.writeBlock_eq (h.holds (h.bitmapBlock_lt hs))
    (bitmapBlock (assignSlot v.allocator.bitmap s used) s)
  rw [← hstart] at hwrite ⊢
  rw [assign_apply (hslots ▸ hs) hblock]
  rcases hwrite with hok | ⟨⟨e, herror⟩, hr⟩
  · left
    rw [hok]
  · right
    refine ⟨⟨.device e, ?_⟩, fun hr' => hr (h.reliable.2 hr')⟩
    rw [herror]

/-- The volume after the bit of a slot was changed and the free list with it. -/
theorem Shows.assigned (h : v.Shows sb r w free) {s : Nat} (hs : s < sb.slots) (used : Bool)
    {free' : List Nat} (hnodup : free'.Nodup)
    (hmem : ∀ {t}, t ∈ free' ↔ t < sb.slots ∧ (w.setUsed s used).used t = false) :
    (v.wrote (sb.bitmapStart + s / 8 / blockSize)
        (bitmapBlock (assignSlot v.allocator.bitmap s used) s)
        { v.allocator with bitmap := assignSlot v.allocator.bitmap s used, free := free' }).Shows
      sb r (w.setUsed s used) free' := by
  have h0 := h.fits.one_le_bitmapStart
  have hblock := bytes_bitmapBlock_bitmapOf sb hs used v.device.image
  have hstart : v.allocator.start = sb.bitmapStart := h.superblock ▸ h.mounted.start
  have hslots : v.allocator.slots = sb.slots := h.superblock ▸ h.mounted.slots
  rw [h.bitmap_eq]
  refine h.wrote (a := { v.allocator with
    bitmap := assignSlot (sb.bitmapOf v.device.image) s used, free := free' })
    (Nat.le_trans h0 (Nat.le_add_right _ _)) (h.bitmapBlock_lt hs) ?_ hstart hslots ?_ hnodup hmem
  · rw [Superblock.view_writeUsed _ h.fits hs used hblock, h.view]
  · exact (Superblock.bitmapOf_write _ hs used hblock).symm

section

variable {α : Type} {act : Allocator → DeviceM (α × Allocator)}

/-- A change of the allocator that has been written. -/
theorem changeAllocator_of_ok {x : α} {a : Allocator} {n : Nat} {b : Block}
    (h : act v.allocator v.device = .ok (x, a) (v.device.wrote n b)) :
    changeAllocator act v = .ok x (v.wrote n b a) := by
  rw [changeAllocator_apply, h]
  rfl

theorem changeAllocator_of_error {e : StoreError} (h : act v.allocator v.device = .error e v.device.tick) :
    changeAllocator act v = .error e v.tick := by
  rw [changeAllocator_apply, h]
  rfl

/-- A change of the allocator that is refused before anything is written. -/
theorem changeAllocator_of_throw {e : StoreError} (h : act v.allocator = throw e) :
    changeAllocator act v = .error e v := by
  rw [changeAllocator_apply, h]
  rfl

/-- The bit of a slot is changed, and the free list so that it still lists the free slots. -/
theorem runs_assign (h : v.Shows sb r w free) {s : Nat} (hs : s < sb.slots) (used : Bool)
    (f : List Nat → List Nat) {x : α}
    (hact : act v.allocator = do
      let a ← v.allocator.assign s used
      return (x, { a with free := f a.free }))
    (hnodup : (f free).Nodup)
    (hmem : ∀ {t}, t ∈ f free ↔ t < sb.slots ∧ (w.setUsed s used).used t = false)
    (hC : C (w.setUsed s used)) :
    Runs sb r C (changeAllocator act) v
      (fun y u => y = x ∧ u.Shows sb r (w.setUsed s used) (f free))
      (fun _ u => u.Shows sb r w free ∧ ¬ r) := by
  have hrun : act v.allocator v.device = _ := congrFun hact v.device
  simp only [bind, EStateM.bind, pure, EStateM.pure] at hrun
  obtain rfl := h.free
  unfold Runs
  rcases h.assign_eq hs used with hok | ⟨⟨e, herror⟩, hr⟩
  · have hshows := h.assigned hs used hnodup hmem
    rw [hok] at hrun
    rw [changeAllocator_of_ok hrun]
    exact ⟨.write .refl _ _ _ (hshows.passes hC), rfl, hshows⟩
  · rw [herror] at hrun
    rw [changeAllocator_of_error hrun]
    exact ⟨.tick .refl, h.tick, hr⟩

end

theorem runs_acquire (h : v.Shows sb r w free)
    (hC : ∀ s rest, free = s :: rest → C (w.setUsed s true)) :
    Runs sb r C acquire v
      (fun s u => ∃ rest, free = s :: rest ∧ u.Shows sb r (w.setUsed s true) rest)
      (fun e u => u.Shows sb r w free ∧ (r → e = .noSpace ∧ free = [])) := by
  have hfree := h.free
  cases free with
  | nil =>
    unfold Runs
    rw [acquire_eq, changeAllocator_of_throw (by rw [Allocator.take, hfree])]
    exact ⟨.refl, h, fun _ => ⟨rfl, rfl⟩⟩
  | cons s rest =>
    have hs : s < sb.slots := (h.mem_free.1 List.mem_cons_self).1
    have hnodup := List.nodup_cons.1 h.nodup
    have hmem {t : Nat} : t ∈ rest ↔ t < sb.slots ∧ (w.setUsed s true).used t = false := by
      have hlisted := h.mem_free (s := t)
      rw [List.mem_cons] at hlisted
      rw [View.used_setUsed]
      by_cases hts : t = s
      · subst hts
        simp [hnodup.1]
      · rw [if_neg hts, ← hlisted]
        simp [hts]
    have hact : v.allocator.take = do
        let a ← v.allocator.assign s true
        return (s, { a with free := rest }) := by
      rw [Allocator.take, hfree]
    rw [acquire_eq]
    refine (runs_assign h hs true (fun _ => rest) hact hnodup.2 hmem (hC s rest rfl)).mono ?_ ?_
    · rintro _ u ⟨rfl, hu⟩
      exact ⟨rest, rfl, hu⟩
    · rintro e u ⟨hu, hr⟩
      exact ⟨hu, fun hr' => absurd hr' hr⟩

theorem runs_release (h : v.Shows sb r w free) {s : Nat} (hs : s < sb.slots) (hused : w.used s = true)
    (hC : C (w.setUsed s false)) :
    Runs sb r C (release s) v (fun _ u => u.Shows sb r (w.setUsed s false) (s :: free))
      (fun _ u => u.Shows sb r w free ∧ ¬ r) := by
  have hfresh : s ∉ free := fun hmem => by
    have := (h.mem_free.1 hmem).2
    rw [hused] at this
    cases this
  have hmem {t : Nat} : t ∈ s :: free ↔ t < sb.slots ∧ (w.setUsed s false).used t = false := by
    rw [List.mem_cons, h.mem_free, View.used_setUsed]
    by_cases hts : t = s
    · subst hts
      simp [hs]
    · simp [hts]
  rw [release_eq]
  exact (runs_assign (x := ()) h hs false (s :: ·) rfl (List.nodup_cons.2 ⟨hfresh, h.nodup⟩) hmem hC).mono
    (fun _ _ hu => hu.2) fun _ _ he => he

theorem runs_markUsed (h : v.Shows sb r w free) {s : Nat} (hs : s < sb.slots)
    (hC : C (w.setUsed s true)) :
    Runs sb r C (markUsed s) v
      (fun _ u => u.Shows sb r (w.setUsed s true) (free.filter (· ≠ s)))
      (fun _ u => u.Shows sb r w free ∧ ¬ r) := by
  have hmem {t : Nat} :
      t ∈ free.filter (· ≠ s) ↔ t < sb.slots ∧ (w.setUsed s true).used t = false := by
    rw [List.mem_filter, h.mem_free, View.used_setUsed]
    by_cases hts : t = s
    · subst hts
      simp
    · simp [hts]
  rw [markUsed_eq]
  exact (runs_assign (x := ()) h hs true (·.filter (· ≠ s)) rfl (h.nodup.filter _) hmem hC).mono
    (fun _ _ hu => hu.2) fun _ _ he => he

end Volume

end BlockStore
