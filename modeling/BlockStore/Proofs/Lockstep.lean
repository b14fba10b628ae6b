import BlockStore.Proofs.Edited
import BlockStore.Proofs.Scan

/-!
# Two devices in step

The same action on two devices that hold the same goes the same way as long as each transfer does. The
devices need not be alike in all else: one may be a file and the other not, or one may have a plan by
which transfers fail that will not come again. `Device.Parallel` is what is asked of them, one transfer
at a time, and it may be given up where a write fails on the first device only; `Volume.Follows` is what
then holds of an action.

Nothing is asked of what the volumes hold. So an action that follows itself on one and the same device
is also one that makes nothing but edits, whatever damage it meets.

## Main definitions

* `Device.Parallel`: two devices on which the same is read, and the same is written.
* `Volume.Twin`: two volumes with the same memory on such devices.
* `Volume.Follows`: the statement about an action on both.

## Main results

* `Volume.Follows.bind`, `Follows.tryCatch`: how actions compose.
* `Volume.Twin.entries_eq`, `locate_eq`: both are scanned with one outcome.
* `Volume.follows_writeData`, `follows_writeKey`, `follows_writeShared`, `follows_acquire`,
  `follows_release`, `follows_markUsed`: the primitive changes.
-/

namespace BlockStore

/-- Devices related by `D` hold the same, and the same is done and seen on them where the volume lies;
except that a write may fail on the first one alone, which then satisfies `X` from there on. -/
structure Device.Parallel (sb : Superblock) (D : Device → Device → Prop) (X : Device → Prop) :
    Prop where
  image {d d' : Device} (h : D d d') : d'.image = d.image
  tick {d d' : Device} (h : D d d') : D d.tick d'.tick
  read {d d' : Device} (h : D d d') {n : Nat} (hn : d.Holds n) : d'.readBlock n = d.readBlock n
  write {d d' : Device} (h : D d d') {n : Nat} (hn : d.Holds n)
    (hbounds : sb.bitmapStart ≤ n ∧ n < sb.dataStart + sb.slots) (b : Block) :
    (writeBlock n b d = .ok () (d.wrote n b) ∧ writeBlock n b d' = .ok () (d'.wrote n b) ∧
        D (d.wrote n b) (d'.wrote n b)) ∨
      (∃ e, writeBlock n b d = .error e d.tick ∧ writeBlock n b d' = .error e d'.tick) ∨
      ∃ e, writeBlock n b d = .error e d.tick ∧ X d.tick
  stays_tick {d : Device} (h : X d) : X d.tick
  stays_write {d : Device} (h : X d) (n : Nat) (b : Block) : X (d.wrote n b)

/-- A write is done in full or not at all, on any device. -/
theorem Device.writeBlock_cases (d : Device) (n : Nat) (b : Block) :
    writeBlock n b d = .ok () (d.wrote n b) ∨ ∃ e, writeBlock n b d = .error e d.tick := by
  rw [writeBlock, write]
  cases d.checkWrite n b.bytes with
  | ok => exact .inl rfl
  | error e => exact .inr ⟨_, rfl⟩

/-- A device is in step with itself. -/
theorem Device.parallel_self (sb : Superblock) : Parallel sb (fun d d' => d' = d) fun _ => False where
  image h := by rw [h]
  tick h := by rw [h]
  read h _ _ := by rw [h]
  write := by
    rintro d d' rfl n - - b
    rcases writeBlock_cases d' n b with hok | ⟨e, herror⟩
    · exact .inl ⟨hok, hok, rfl⟩
    · exact .inr (.inl ⟨e, herror, herror⟩)
  stays_tick := False.elim
  stays_write h := h.elim

namespace Volume

/-- Two volumes with the same memory, on devices related by `D`. -/
structure Twin (sb : Superblock) (D : Device → Device → Prop) (v v' : Volume) : Prop where
  seated : v.Seated sb
  superblock : v'.superblock = v.superblock
  allocator : v'.allocator = v.allocator
  device : D v.device v'.device

variable {sb : Superblock} {D : Device → Device → Prop} {X : Device → Prop} {v v' u u' : Volume}

section

variable {α : Type} {act : VolumeM α}

theorem catch_of_ok {handler : StoreError → VolumeM α} {a : α} (h : act v = .ok a u) :
    (MonadExcept.tryCatch act handler : VolumeM α) v = .ok a u := by
  rw [Runs.tryCatch_apply, h]

theorem catch_of_error {handler : StoreError → VolumeM α} {e : StoreError} (h : act v = .error e u) :
    (MonadExcept.tryCatch act handler : VolumeM α) v = handler e u := by
  rw [Runs.tryCatch_apply, h]

/-- If a handler has no success of its own, one of the whole is one of the action. -/
theorem of_catch_eq_ok {handler : StoreError → VolumeM α} (hfails : ∀ e t a x, handler e t ≠ .ok a x) {a : α}
    (h : (MonadExcept.tryCatch act handler : VolumeM α) v = .ok a u) : act v = .ok a u := by
  cases hact : act v with
  | ok b t =>
    rw [catch_of_ok hact] at h
    exact h
  | error e t => exact absurd ((catch_of_error hact).symm.trans h) (hfails e t a u)

end

theorem Twin.tick (hpar : Device.Parallel sb D X) (ht : Twin sb D v v') : Twin sb D v.tick v'.tick :=
  ⟨ht.seated.tick, ht.superblock, ht.allocator, hpar.tick ht.device⟩

theorem Seated.twin (h : v.Seated sb) : Twin sb (fun d d' => d' = d) v v := ⟨h, rfl, rfl, rfl⟩

/-- What stays of the first device stays through edits. -/
theorem Edited.stays (hpar : Device.Parallel sb D X) (hu : Edited sb v u) (h : X v.device) :
    X u.device := by
  induction hu with
  | refl => exact h
  | tick _ ih => exact hpar.stays_tick ih
  | edit _ _ ih => exact hpar.stays_write ih _ _

variable (sb D X) in
/-- What an action does on `v` and on `v'`. On `v` it makes nothing but edits. -/
inductive Follows {α : Type} (act : VolumeM α) (v v' : Volume) (Q : α → Prop) : Prop where
  /-- It has the same result on both, which satisfies `Q`. -/
  | ok {a : α} {u u' : Volume} (hrun : act v = .ok a u) (hrun' : act v' = .ok a u') (hQ : Q a)
      (hu : Edited sb v u) (ht : Twin sb D u u')
  /-- It fails with the same error on both. -/
  | error {e : StoreError} {u u' : Volume} (hrun : act v = .error e u) (hrun' : act v' = .error e u')
      (hu : Edited sb v u) (ht : Twin sb D u u')
  /-- It fails on `v`, with `X`. -/
  | apart {e : StoreError} {u : Volume} (hrun : act v = .error e u) (hu : Edited sb v u)
      (hX : X u.device)

namespace Follows

variable {α β : Type} {act : VolumeM α} {Q Q' : α → Prop} {R : β → Prop}

theorem pure (ht : Twin sb D v v') {a : α} (hQ : Q a) : Follows sb D X (pure a) v v' Q :=
  .ok rfl rfl hQ .refl ht

theorem throw (ht : Twin sb D v v') (e : StoreError) :
    Follows sb D X (throw e : VolumeM α) v v' Q := .error rfl rfl .refl ht

theorem of_ok {a : α} (h : Follows sb D X act v v' Q) (hrun : act v = .ok a u) :
    ∃ u', act v' = .ok a u' ∧ Q a ∧ Edited sb v u ∧ Twin sb D u u' := by
  cases h with
  | ok hok hrun' hQ hu ht =>
    rw [hrun] at hok
    cases hok
    exact ⟨_, hrun', hQ, hu, ht⟩
  | error herror =>
    rw [hrun] at herror
    cases herror
  | apart herror =>
    rw [hrun] at herror
    cases herror

theorem of_error {e : StoreError} (h : Follows sb D X act v v' Q) (hrun : act v = .error e u) :
    Edited sb v u ∧ ((∃ u', act v' = .error e u' ∧ Twin sb D u u') ∨ X u.device) := by
  cases h with
  | ok hok =>
    rw [hrun] at hok
    cases hok
  | error herror hrun' hu ht =>
    rw [hrun] at herror
    cases herror
    exact ⟨hu, .inl ⟨_, hrun', ht⟩⟩
  | apart herror hu hX =>
    rw [hrun] at herror
    cases herror
    exact ⟨hu, .inr hX⟩

/-- What is known of an action from a later state on is known of it from the start. -/
theorem of_edited {act' : VolumeM α} (h : Follows sb D X act' u u' Q) (hu : Edited sb v u)
    (hact : act v = act' u) (hact' : act v' = act' u') : Follows sb D X act v v' Q := by
  cases h with
  | ok hrun hrun' hQ ht hs => exact .ok (hact.trans hrun) (hact'.trans hrun') hQ (hu.trans ht) hs
  | error hrun hrun' ht hs => exact .error (hact.trans hrun) (hact'.trans hrun') (hu.trans ht) hs
  | apart hrun ht hX => exact .apart (hact.trans hrun) (hu.trans ht) hX

theorem bind {f : α → VolumeM β} (hact : Follows sb D X act v v' Q)
    (hf : ∀ a u u', Q a → Twin sb D u u' → Follows sb D X (f a) u u' R) :
    Follows sb D X (act >>= f) v v' R := by
  cases hact with
  | ok hrun hrun' hQ hu ht => exact (hf _ _ _ hQ ht).of_edited hu (bind_of_ok hrun) (bind_of_ok hrun')
  | error hrun hrun' hu ht => exact .error (bind_of_error hrun) (bind_of_error hrun') hu ht
  | apart hrun hu hX => exact .apart (bind_of_error hrun) hu hX

/-- An action of whose result something is reported. -/
theorem map {f : α → β} (hact : Follows sb D X act v v' Q) :
    Follows sb D X (act >>= fun a => Pure.pure (f a)) v v' fun _ => True :=
  hact.bind fun _ _ _ _ ht => .pure ht trivial

/-- An action that begins by looking at the memory, of which it uses what both volumes share. -/
theorem get_bind {f : Volume → VolumeM β} (hf : f v' = f v) (h : Follows sb D X (f v) v v' R) :
    Follows sb D X (get >>= f) v v' R := h.of_edited .refl rfl (congrFun hf v')

/-- A handler has to follow itself only where the action has failed on both volumes; where it has failed
on the first one alone, the handler must fail as well. -/
theorem tryCatch {handler : StoreError → VolumeM α} (hact : Follows sb D X act v v' Q)
    (hv : v.Seated sb)
    (hh : ∀ e u u', Twin sb D u u' → Follows sb D X (handler e) u u' Q)
    (hX : ∀ e u, u.Seated sb → X u.device →
      ∃ e' t, handler e u = .error e' t ∧ Edited sb u t ∧ X t.device) :
    Follows sb D X (MonadExcept.tryCatch act handler) v v' Q := by
  cases hact with
  | ok hrun hrun' hQ hu ht => exact .ok (catch_of_ok hrun) (catch_of_ok hrun') hQ hu ht
  | error hrun hrun' hu ht =>
    exact (hh _ _ _ ht).of_edited hu (catch_of_error hrun) (catch_of_error hrun')
  | apart hrun hu hXu =>
    obtain ⟨e', t, h, ht, hXt⟩ := hX _ _ (hv.edited hu) hXu
    exact .apart ((catch_of_error hrun).trans h) (hu.trans ht) hXt

/-- An action that follows itself on one device makes nothing but edits there. -/
theorem edited (h : Follows sb (fun d d' => d' = d) (fun _ => False) act v v Q) :
    (∃ a u, act v = .ok a u ∧ Edited sb v u) ∨ ∃ e u, act v = .error e u ∧ Edited sb v u := by
  cases h with
  | ok hrun _ _ hu _ => exact .inl ⟨_, _, hrun, hu⟩
  | error hrun _ hu _ => exact .inr ⟨_, _, hrun, hu⟩
  | apart _ _ hX => exact hX.elim

theorem look (hpar : Device.Parallel sb D X) (ht : Twin sb D v v') {f : Volume → Except StoreError α}
    (hf : f v' = f v) (hQ : ∀ a, f v = .ok a → Q a) : Follows sb D X (Volume.look f) v v' Q := by
  cases h : f v with
  | ok a =>
    exact .ok (by rw [Volume.look, h]) (by rw [Volume.look, hf, h]) (hQ a h) (.tick .refl) (ht.tick hpar)
  | error e =>
    exact .error (by rw [Volume.look, h]) (by rw [Volume.look, hf, h]) (.tick .refl) (ht.tick hpar)

end Follows

/-! ### What is read on both -/

theorem Seated.keyTable_eq (h : v.Seated sb) : v.keyTable = ⟨sb.keysStart, sb.slots⟩ := by
  rw [keyTable, h.superblock]
  rfl

theorem Seated.dedupTable_eq (h : v.Seated sb) :
    v.dedupTable = if sb.isDedup then some ⟨sb.dedupStart, sb.dedupBlocks⟩ else none := by
  rw [dedupTable, h.superblock]

namespace Twin

variable (hpar : Device.Parallel sb D X) (ht : Twin sb D v v')

include ht

theorem keyTable_eq : v'.keyTable = v.keyTable := by rw [keyTable, keyTable, ht.superblock]

theorem dedupTable_eq : v'.dedupTable = v.dedupTable := by rw [dedupTable, dedupTable, ht.superblock]

include hpar

/-- The blocks of the regions are read alike. -/
theorem readBlock_eq {r : Region} (hr : r ∈ sb.inner) {n : Nat} (hn : r.Holds n) :
    v'.device.readBlock n = v.device.readBlock n :=
  hpar.read ht.device (ht.seated.holds (Superblock.bounds_of_holds ht.seated.fits hr hn).2)

theorem readData_eq {s : Nat} (hs : s < sb.slots) :
    v'.device.readBlock (sb.dataBlock s) = v.device.readBlock (sb.dataBlock s) :=
  ht.readBlock_eq hpar (r := sb.dataRegion) (by simp [Superblock.inner])
    (Superblock.mem_dataRegion.2 ⟨s, hs, rfl⟩)

theorem entries_eq : v'.keyTable.entries v'.device = v.keyTable.entries v.device := by
  rw [ht.keyTable_eq, ht.seated.keyTable_eq]
  exact KeyTable.entries_congr fun k hk => ht.readBlock_eq hpar (r := sb.keysRegion)
    (by simp [Superblock.inner]) ⟨Nat.le_add_right _ _, Nat.add_lt_add_left hk _⟩

theorem lookup_eq (key : Key) : v'.lookup key = v.lookup key :=
  congrArg (fun l => KeyTable.findKey key (KeyTable.activeOf l)) (ht.entries_eq hpar)

theorem contains_eq (key : Key) : v'.contains key = v.contains key := by
  rw [contains, contains, ht.lookup_eq hpar]

theorem readPointer_eq {s : Nat} (hs : s < sb.slots) : v'.readPointer s = v.readPointer s := by
  rw [readPointer, readPointer, ht.superblock, ht.seated.superblock, ht.readData_eq hpar hs]

theorem keyEntry_eq (s : Nat) : KeyTable.entry ⟨sb.keysStart, sb.slots⟩ v'.device s =
    KeyTable.entry ⟨sb.keysStart, sb.slots⟩ v.device s :=
  KeyTable.entry_congr fun hs => ht.readBlock_eq hpar (r := sb.keysRegion) (by simp [Superblock.inner])
    (Superblock.mem_keysRegion hs)

theorem readShared_eq {k : Nat} (hk : k < sb.dedupBlocks) :
    v'.device.readBlock (sb.dedupStart + k) = v.device.readBlock (sb.dedupStart + k) :=
  ht.readBlock_eq hpar (r := sb.dedupRegion) (by simp [Superblock.inner])
    ⟨Nat.le_add_right _ _, Nat.add_lt_add_left hk _⟩

theorem sharedEntries_eq : DedupTable.entries ⟨sb.dedupStart, sb.dedupBlocks⟩ v'.device =
    DedupTable.entries ⟨sb.dedupStart, sb.dedupBlocks⟩ v.device :=
  DedupTable.entries_congr fun _ hk => ht.readShared_eq hpar hk

theorem locate_eq (c : Criterion) : DedupTable.locate ⟨sb.dedupStart, sb.dedupBlocks⟩ v'.device c =
    DedupTable.locate ⟨sb.dedupStart, sb.dedupBlocks⟩ v.device c :=
  DedupTable.locate_congr fun _ hk => ht.readShared_eq hpar hk

theorem sharedEntry_eq {i : Nat} (hi : i < sb.dedupCapacity) :
    DedupTable.entry ⟨sb.dedupStart, sb.dedupBlocks⟩ v'.device i =
      DedupTable.entry ⟨sb.dedupStart, sb.dedupBlocks⟩ v.device i :=
  DedupTable.entry_congr (ht.readShared_eq hpar ((Nat.div_lt_iff_lt_mul (by decide)).2 hi))

end Twin

theorem Seated.lt_of_lookup (h : v.Seated sb) {key : Key} {s : Nat} (hs : v.lookup key = .ok s) :
    s < sb.slots := by
  rw [lookup, h.keyTable_eq] at hs
  exact KeyTable.lt_of_lookup hs

/-! ### The primitive changes -/

/-- Changing one bit is writing the block that holds it. -/
theorem Seated.assign_apply (h : v.Seated sb) {s : Nat} (hs : s < sb.slots) (used : Bool)
    (d : Device) : v.allocator.assign s used d =
      match Device.writeBlock (sb.bitmapStart + s / 8 / blockSize)
        (bitmapBlock (assignSlot v.allocator.bitmap s used) s) d with
      | .ok () d => .ok { v.allocator with bitmap := assignSlot v.allocator.bitmap s used } d
      | .error e d => .error e d := by
  have hblock := h.bytes_bitmapBlock hs used
  rw [← h.bitmap] at hblock
  rw [← h.slots] at hs
  rw [← h.start]
  exact Volume.assign_apply hs hblock d

theorem onDevice_of_error {α : Type} {act : DeviceM α} {e : StoreError}
    (h : act v.device = .error e v.device.tick) : onDevice act v = .error e v.tick := by
  simp only [onDevice, h]
  rfl

/-- Acquiring fails before any request, without a free slot or with one that does not exist, or it sets the bit
of a slot and takes it off the free list. -/
theorem Seated.take_cases (h : v.Seated sb) :
    (∃ e, v.allocator.take = throw e) ∨
      ∃ s rest, s < sb.slots ∧ v.allocator.take = do
        let a ← v.allocator.assign s true
        return (s, { a with free := rest }) := by
  cases hfree : v.allocator.free with
  | nil => exact .inl ⟨.noSpace, by rw [Allocator.take, hfree]⟩
  | cons s rest =>
    have hact : v.allocator.take = do
        let a ← v.allocator.assign s true
        return (s, { a with free := rest }) := by
      rw [Allocator.take, hfree]
    by_cases hs : s < sb.slots
    · exact .inr ⟨s, rest, hs, hact⟩
    · rw [← h.slots] at hs
      refine .inl ⟨.slotState s .withinVolume, ?_⟩
      rw [hact, Allocator.assign, if_neg hs]
      rfl

section Primitives

variable (hpar : Device.Parallel sb D X) (ht : Twin sb D v v')

theorem Edit.tick {n : Nat} {b : Block} {a : Allocator} (he : Edit sb v n b a) :
    Edit sb v.tick n b a := by
  cases he with
  | data hs b => exact .data hs b
  | key hs rec => exact .key hs rec
  | shared hi rec => exact .shared hi rec
  | bit hs used free => exact .bit hs used free

theorem Twin.wrote (ht : Twin sb D v v') {n : Nat} {b : Block} {a : Allocator} (he : Edit sb v n b a)
    (hd : D (v.device.wrote n b) (v'.device.wrote n b)) : Twin sb D (v.wrote n b a) (v'.wrote n b a) :=
  ⟨ht.seated.edit he, ht.superblock, rfl, hd⟩

theorem Edit.bounds {n : Nat} {b : Block} {a : Allocator} (he : Edit sb v n b a) (h : v.Seated sb) :
    sb.bitmapStart ≤ n ∧ n < sb.dataStart + sb.slots := by
  obtain ⟨r, hr, hn⟩ := he.held
  exact Superblock.bounds_of_holds h.fits hr hn

theorem Edit.holds {n : Nat} {b : Block} {a : Allocator} (he : Edit sb v n b a) (h : v.Seated sb) :
    v.device.Holds n := h.holds (he.bounds h).2

include hpar ht

theorem follows_writeBlock {n : Nat} {b : Block} (he : Edit sb v n b v.allocator) :
    Follows sb D X (onDevice (Device.writeBlock n b)) v v' fun _ => True := by
  rcases hpar.write ht.device (he.holds ht.seated) (he.bounds ht.seated) b with
    ⟨hok, hok', hd⟩ | ⟨e, herror, herror'⟩ | ⟨e, herror, hX⟩
  · have htwin := ht.wrote he hd
    have hrun : onDevice (Device.writeBlock n b) v = .ok () (v.wrote n b v.allocator) := by
      simp only [onDevice, hok]
      rfl
    have hrun' : onDevice (Device.writeBlock n b) v' = .ok () (v'.wrote n b v.allocator) := by
      simp only [onDevice, hok', ← ht.allocator]
      rfl
    exact .ok hrun hrun' trivial (.edit .refl he) htwin
  · exact .error (onDevice_of_error herror) (onDevice_of_error herror') (.tick .refl) (ht.tick hpar)
  · exact .apart (onDevice_of_error herror) (.tick .refl) hX

theorem follows_writeData {s : Nat} (hs : s < sb.slots) (b : Block) :
    Follows sb D X (writeData s b) v v' fun _ => True := by
  refine .get_bind (by simp only [ht.superblock]) ?_
  rw [ht.seated.superblock]
  exact follows_writeBlock hpar ht (.data hs b)

/-- Replacing one record of a table: its block is read, and written back with the record. -/
theorem follows_writeRecord {t : RecordTable} {i : Nat} {rec : Record} {r : Region} (hr : r ∈ sb.inner)
    (hn : r.Holds (t.blockOf i))
    (he : Edit sb v (t.blockOf i)
      ((v.device.image.block (t.blockOf i)).setRecord (i % recordsPerBlock) rec) v.allocator) :
    Follows sb D X (onDevice (t.write i rec)) v v' fun _ => True := by
  rw [RecordTable.write, onDevice_bind, onDevice_look]
  have hsame := ht.readBlock_eq hpar hr hn
  cases hread : v.device.readBlock (t.blockOf i) with
  | error e =>
    have hrun : look (fun v => v.device.readBlock (t.blockOf i)) v = .error e v.tick := by
      simp only [look, hread]
    have hrun' : look (fun v => v.device.readBlock (t.blockOf i)) v' = .error e v'.tick := by
      simp only [look, hsame, hread]
    exact .error (bind_of_error hrun) (bind_of_error hrun') (.tick .refl) (ht.tick hpar)
  | ok b =>
    obtain rfl := Device.eq_of_readBlock hread
    exact (follows_writeBlock hpar (ht.tick hpar) he.tick).of_edited (.tick .refl)
      (bind_of_ok (by simp only [look, hread])) (bind_of_ok (by simp only [look, hsame, hread]))

theorem follows_writeKey {s : Nat} (hs : s < sb.slots) (e : KeyEntry) :
    Follows sb D X (onDevice (KeyTable.writeEntry ⟨sb.keysStart, sb.slots⟩ s e)) v v'
      fun _ => True := by
  rw [onDevice_writeEntry hs]
  exact follows_writeRecord hpar ht (r := sb.keysRegion) (by simp [Superblock.inner])
    (Superblock.mem_keysRegion hs) (.key hs e.toRecord)

theorem follows_writeShared {i : Nat} (hi : i < sb.dedupCapacity) (e : DedupEntry) :
    Follows sb D X (onDevice (DedupTable.writeEntry ⟨sb.dedupStart, sb.dedupBlocks⟩ i e)) v v'
      fun _ => True :=
  follows_writeRecord hpar ht (r := sb.dedupRegion) (by simp [Superblock.inner])
    (Superblock.mem_dedupRegion hi) (.shared hi e.toRecord)

/-- A change of one bit, and of the free list by `f`. -/
theorem follows_assign {α : Type} {act : Allocator → DeviceM (α × Allocator)} {s : Nat}
    (hs : s < sb.slots) (used : Bool) (f : List Nat → List Nat) {x : α} {Q : α → Prop} (hQ : Q x)
    (hact : act v.allocator = do
      let a ← v.allocator.assign s used
      return (x, { a with free := f a.free })) : Follows sb D X (changeAllocator act) v v' Q := by
  have he : Edit sb v _ _ _ := .bit hs used (f v.allocator.free)
  have hrun (d : Device) : act v.allocator d = _ := congrFun hact d
  simp only [bind, EStateM.bind, pure, EStateM.pure, ht.seated.assign_apply hs used] at hrun
  have hrun' (d : Device) : act v'.allocator d = _ := (congrArg (act · d) ht.allocator).trans (hrun d)
  rcases hpar.write ht.device (he.holds ht.seated) (he.bounds ht.seated)
      (bitmapBlock (assignSlot v.allocator.bitmap s used) s) with
    ⟨hok, hok', hd⟩ | ⟨e, herror, herror'⟩ | ⟨e, herror, hX⟩
  · have hdone := hrun v.device
    have hdone' := hrun' v'.device
    rw [hok] at hdone
    rw [hok'] at hdone'
    exact .ok (changeAllocator_of_ok hdone) (changeAllocator_of_ok hdone') hQ (.edit .refl he) (ht.wrote he hd)
  · have hfail := hrun v.device
    have hfail' := hrun' v'.device
    rw [herror] at hfail
    rw [herror'] at hfail'
    exact .error (changeAllocator_of_error hfail) (changeAllocator_of_error hfail') (.tick .refl) (ht.tick hpar)
  · have hfail := hrun v.device
    rw [herror] at hfail
    exact .apart (changeAllocator_of_error hfail) (.tick .refl) hX

/-- The slot that is taken belongs to the volume, even if the free list holds others. -/
theorem follows_acquire : Follows sb D X acquire v v' (· < sb.slots) := by
  rw [acquire_eq]
  rcases ht.seated.take_cases with ⟨e, hfail⟩ | ⟨s, rest, hs, hact⟩
  · exact .error (changeAllocator_of_throw hfail) (changeAllocator_of_throw (ht.allocator ▸ hfail)) .refl ht
  · exact follows_assign hpar ht hs true (fun _ => rest) hs hact

theorem follows_release {s : Nat} (hs : s < sb.slots) :
    Follows sb D X (release s) v v' fun _ => True :=
  release_eq s ▸ follows_assign hpar ht (x := ()) hs false (s :: ·) trivial rfl

theorem follows_markUsed {s : Nat} (hs : s < sb.slots) :
    Follows sb D X (markUsed s) v v' fun _ => True :=
  markUsed_eq s ▸ follows_assign hpar ht (x := ()) hs true (·.filter (· ≠ s)) trivial rfl

end Primitives

end Volume

end BlockStore
