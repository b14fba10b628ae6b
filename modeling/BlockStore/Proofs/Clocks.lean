import BlockStore.Proofs.InStep
import BlockStore.Proofs.Queries
import BlockStore.Proofs.Remount

/-!
# The same at other times

Nothing that a volume does depends on the timestamps in its entries. They are written, and copied when
an entry is written back with another key, and that is all. So when the same is done to two volumes that
differ in timestamps only, at whatever times, both do the same and differ in timestamps only.

The devices must be reliable, for the two entries that are written in the place of one another are
different blocks. What the volumes hold does not matter, damage included: nothing is asked of the tables,
the bits or the free list.

## Main definitions

* `View.UpToTimes`: two views that differ in timestamps only.
* `Volume.Steady`: a volume whose memory belongs to its device, which is reliable.
* `Volume.Abreast`: two such volumes with the same memory and such views.
* `Volume.Paces`: what two actions do on two such volumes.

## Main results

* `Volume.Paces.bind`, `Paces.tryCatch`: how actions compose.
* `Volume.paces_create`, `paces_put`, `paces_remove`, `paces_rename`: the operations.
-/

namespace BlockStore

/-- The entry `e'` is `e` at another time. -/
def KeyEntry.UpToTime (e e' : KeyEntry) : Prop := e' = { e with timestamp := e'.timestamp }

namespace KeyEntry.UpToTime

variable {e e' : KeyEntry}

theorem refl (e : KeyEntry) : e.UpToTime e := rfl

theorem key_eq (h : e.UpToTime e') : e'.key = e.key := by rw [h]

theorem flags_eq (h : e.UpToTime e') : e'.flags = e.flags := by rw [h]

theorem refCount_eq (h : e.UpToTime e') : e'.refCount = e.refCount := by rw [h]

theorem isActive_eq (h : e.UpToTime e') : e'.isActive = e.isActive := by
  rw [isActive, isActive, h.flags_eq]

theorem isFree_eq (h : e.UpToTime e') : e'.isFree = e.isFree := by
  rw [isFree, isFree, h.flags_eq]

theorem setKey (h : e.UpToTime e') (key : Key) : { e with key }.UpToTime { e' with key } := by
  rw [h]
  rfl

theorem setTime (h : e.UpToTime e') (t t' : Timestamp) :
    { e with timestamp := t }.UpToTime { e' with timestamp := t' } := by
  rw [h]
  rfl

end KeyEntry.UpToTime

namespace View

/-- The view `w'` is `w` but for the timestamps of entries. -/
structure UpToTimes (w w' : View) : Prop where
  keys : ∀ s, (w.keys s).UpToTime (w'.keys s)
  shared : w'.shared = w.shared
  used : w'.used = w.used
  data : w'.data = w.data

namespace UpToTimes

variable {w w' : View} (h : w.UpToTimes w')

theorem refl (w : View) : w.UpToTimes w := ⟨fun _ => rfl, rfl, rfl, rfl⟩

include h

theorem setKey (s : Nat) {e e' : KeyEntry} (he : e.UpToTime e') :
    (w.setKey s e).UpToTimes (w'.setKey s e') where
  keys t := by
    rw [keys_setKey, keys_setKey]
    split
    · exact he
    · exact h.keys t
  shared := h.shared
  used := h.used
  data := h.data

theorem setShared (i : Nat) (e : DedupEntry) : (w.setShared i e).UpToTimes (w'.setShared i e) where
  keys := h.keys
  shared := by
    funext j
    rw [shared_setShared, shared_setShared, h.shared]
  used := h.used
  data := h.data

theorem setUsed (s : Nat) (used : Bool) : (w.setUsed s used).UpToTimes (w'.setUsed s used) where
  keys := h.keys
  shared := h.shared
  used := by
    funext t
    rw [used_setUsed, used_setUsed, h.used]
  data := h.data

theorem setData (s : Nat) (b : Block) : (w.setData s b).UpToTimes (w'.setData s b) where
  keys := h.keys
  shared := h.shared
  used := h.used
  data := by
    funext t
    rw [data_setData, data_setData, h.data]

theorem pointer_eq (s : Nat) : w'.pointer s = w.pointer s := by rw [pointer, pointer, h.data]

theorem active_iff (s : Nat) : w'.Active s ↔ w.Active s := by
  rw [Active, Active, (h.keys s).isActive_eq]

theorem holds_iff (key : Key) (s : Nat) : w'.Holds key s ↔ w.Holds key s := by
  rw [Holds, Holds, (h.keys s).isActive_eq, (h.keys s).key_eq]

theorem slotOf_eq (sb : Superblock) (key : Key) : w'.slotOf sb key = w.slotOf sb key := by
  simp only [slotOf, h.holds_iff]

theorem sharedEntries_eq (sb : Superblock) : sb.sharedEntries w' = sb.sharedEntries w := by
  rw [Superblock.sharedEntries, Superblock.sharedEntries, h.shared]

theorem value_eq (sb : Superblock) (s : Nat) : w'.value sb s = w.value sb s := by
  rw [value, value, h.pointer_eq, h.data]

/-- The map is a matter of keys and data. -/
theorem contents_eq (sb : Superblock) : w'.contents sb = w.contents sb := by
  funext key
  rw [contents, contents, h.slotOf_eq]
  exact Option.map_congr fun s _ => h.value_eq sb s

/-- The keys are listed in one order. -/
theorem keyList_eq (sb : Superblock) : w'.keyList sb = w.keyList sb := by
  simp only [keyList, h.active_iff]
  exact List.map_congr_left fun s _ => (h.keys s).key_eq

end UpToTimes

end View

namespace Volume

/-- Memory belongs to the device, but for the free list; the superblock is the one in block 0, and no
transfer fails. -/
structure Steady (sb : Superblock) (v : Volume) : Prop where
  seated : v.Seated sb
  stored : Superblock.decode (v.device.image.block 0).bytes = .ok sb
  reliable : v.device.Reliable

/-- Two volumes with the same memory, that differ in timestamps only. -/
structure Abreast (sb : Superblock) (v v' : Volume) : Prop where
  left : v.Steady sb
  right : v'.Steady sb
  allocator : v'.allocator = v.allocator
  view : (sb.view v.device.image).UpToTimes (sb.view v'.device.image)

variable {sb : Superblock} {v v' u u' : Volume} {s n : Nat} {b b' : Block} {a : Allocator}

namespace Steady

theorem tick (h : v.Steady sb) : v.tick.Steady sb :=
  ⟨h.seated.tick, h.stored, Device.reliable_tick.2 h.reliable⟩

/-- With its free list put in order, the volume is a mounted one. -/
theorem shows (h : v.Steady sb) :
    (v.withFree (clearSlots sb (sb.view v.device.image))).Shows sb True (sb.view v.device.image)
      (clearSlots sb (sb.view v.device.image)) := by
  obtain ⟨device, superblock, start, slots, bitmap, free⟩ := v
  obtain ⟨⟨hsb, hfits, hstart, hslots, hbitmap⟩, hstored, hr⟩ := h
  dsimp only at hsb hstart hslots hbitmap
  subst hsb hstart hslots hbitmap
  have hshows := shows_load hstored hfits rfl
  exact ⟨hshows.mounted, hshows.superblock, iff_true_intro hr, hshows.view, hshows.free⟩

/-- An edit goes through. -/
theorem writeBlock_eq (h : v.Steady sb) (he : Edit sb v n b a) :
    Device.writeBlock n b v.device = .ok () (v.device.wrote n b) :=
  (Device.writeBlock_eq (he.holds h.seated) b).resolve_right fun hfault => hfault.2 h.reliable

theorem wrote (h : v.Steady sb) (he : Edit sb v n b a) : (v.wrote n b a).Steady sb where
  seated := h.seated.edit he
  stored := by
    have hbounds := (he.bounds h.seated).1
    have hstart := h.seated.fits.one_le_bitmapStart
    change Superblock.decode ((v.device.image.write n b.bytes).block 0).bytes = _
    rw [Image.block_write_bytes, if_neg (by omega)]
    exact h.stored
  reliable := ((he.holds h.seated).reliable_wrote b).2 h.reliable

theorem onDevice_writeBlock (h : v.Steady sb) (he : Edit sb v n b v.allocator) :
    onDevice (Device.writeBlock n b) v = .ok () (v.wrote n b v.allocator) := by
  simp only [onDevice, h.writeBlock_eq he]
  rfl

/-- Replacing one record of a table: its block is read, and written back with the record. -/
theorem onDevice_write (h : v.Steady sb) {t : RecordTable} {i : Nat} {rec : Record}
    (he : Edit sb v (t.blockOf i)
      ((v.device.image.block (t.blockOf i)).setRecord (i % recordsPerBlock) rec) v.allocator) :
    onDevice (t.write i rec) v = .ok () (v.tick.wrote (t.blockOf i)
      ((v.device.image.block (t.blockOf i)).setRecord (i % recordsPerBlock) rec) v.allocator) := by
  have hread : v.device.readBlock (t.blockOf i) = .ok (v.device.image.block (t.blockOf i)) :=
    (Device.readBlock_eq (he.holds h.seated)).resolve_right fun hfault => hfault.2 h.reliable
  have hlook : look (fun v => v.device.readBlock (t.blockOf i)) v =
      .ok (v.device.image.block (t.blockOf i)) v.tick := by
    rw [look, hread]
  rw [RecordTable.write, onDevice_bind, onDevice_look, bind_of_ok hlook]
  exact h.tick.onDevice_writeBlock he.tick

end Steady

/-! ### What is read on both -/

namespace Abreast

variable (h : Abreast sb v v')

theorem tick (h : Abreast sb v v') : Abreast sb v.tick v'.tick :=
  ⟨h.left.tick, h.right.tick, h.allocator, h.view⟩

include h

theorem superblock_eq : v'.superblock = v.superblock :=
  h.right.seated.superblock.trans h.left.seated.superblock.symm

theorem keyTable_eq : v'.keyTable = v.keyTable := by rw [keyTable, keyTable, h.superblock_eq]

theorem dedupTable_eq : v'.dedupTable = v.dedupTable := by
  rw [dedupTable, dedupTable, h.superblock_eq]

theorem lookup_eq (key : Key) : v'.lookup key = v.lookup key := by
  have hslot := h.view.slotOf_eq sb key
  rcases h.left.shows.lookup_cases key with ⟨s, hok, hs⟩ | ⟨hnone, hs⟩ | ⟨-, hr⟩
  · rcases h.right.shows.lookup_cases key with ⟨t, hok', ht⟩ | ⟨-, ht⟩ | ⟨-, hr⟩
    · rw [hslot, hs] at ht
      cases ht
      exact hok'.trans hok.symm
    · rw [hslot, hs] at ht
      cases ht
    · exact absurd trivial hr
  · rcases h.right.shows.lookup_cases key with ⟨t, -, ht⟩ | ⟨hnone', -⟩ | ⟨-, hr⟩
    · rw [hslot, hs] at ht
      cases ht
    · exact hnone'.trans hnone.symm
    · exact absurd trivial hr
  · exact absurd trivial hr

theorem contains_eq (key : Key) : v'.contains key = v.contains key := by
  rw [contains, contains, h.lookup_eq]

theorem readPointer_eq (hs : s < sb.slots) : v'.readPointer s = v.readPointer s := by
  have hleft : v.readPointer s = .ok _ :=
    (h.left.shows.readPointer_eq hs).resolve_right fun hfault => hfault.2 trivial
  have hright : v'.readPointer s = .ok _ :=
    (h.right.shows.readPointer_eq hs).resolve_right fun hfault => hfault.2 trivial
  rw [hleft, hright, h.view.pointer_eq]

theorem locate_eq (c : Criterion) : DedupTable.locate ⟨sb.dedupStart, sb.dedupBlocks⟩ v'.device c =
    DedupTable.locate ⟨sb.dedupStart, sb.dedupBlocks⟩ v.device c := by
  have hleft : DedupTable.entries ⟨sb.dedupStart, sb.dedupBlocks⟩ v.device = _ :=
    h.left.shows.reads_shared.eq_map_ok trivial
  have hright : DedupTable.entries ⟨sb.dedupStart, sb.dedupBlocks⟩ v'.device = _ :=
    h.right.shows.reads_shared.eq_map_ok trivial
  rw [DedupTable.locate_eq_locateIn, DedupTable.locate_eq_locateIn, hleft, hright,
    h.view.sharedEntries_eq]

/-- The entry of a slot is read on both, at two times. -/
theorem exists_entry (hs : s < sb.slots) :
    ∃ e e', KeyTable.entry ⟨sb.keysStart, sb.slots⟩ v.device s = .ok e ∧
      KeyTable.entry ⟨sb.keysStart, sb.slots⟩ v'.device s = .ok e' ∧ e.UpToTime e' :=
  ⟨_, _, (h.left.shows.entry_eq hs).resolve_right fun hfault => hfault.2 trivial,
    (h.right.shows.entry_eq hs).resolve_right fun hfault => hfault.2 trivial, h.view.keys s⟩

end Abreast

/-! ### Two actions on two volumes -/

variable (sb) in
/-- What `act` does on `v` and `act'` on `v'`: they have one outcome, with `Q` if it is a result, and the
volumes are abreast afterwards. -/
inductive Paces {α : Type} (act act' : VolumeM α) (v v' : Volume) (Q : α → Prop) : Prop where
  /-- Both succeed. -/
  | ok {x : α} {u u' : Volume} (hrun : act v = .ok x u) (hrun' : act' v' = .ok x u') (hQ : Q x)
      (h : Abreast sb u u')
  /-- Both fail. -/
  | error {e : StoreError} {u u' : Volume} (hrun : act v = .error e u) (hrun' : act' v' = .error e u')
      (h : Abreast sb u u')

namespace Paces

variable {α β : Type} {act act' : VolumeM α} {Q Q' : α → Prop} {R : β → Prop}

theorem pure (h : Abreast sb v v') {x : α} (hQ : Q x) : Paces sb (pure x) (pure x) v v' Q :=
  .ok rfl rfl hQ h

theorem throw (h : Abreast sb v v') (e : StoreError) :
    Paces sb (throw e : VolumeM α) (throw e) v v' Q := .error rfl rfl h

theorem of_eq {f f' : VolumeM α} (h : Paces sb f f' u u' Q) (hact : act v = f u)
    (hact' : act' v' = f' u') : Paces sb act act' v v' Q := by
  cases h with
  | ok hrun hrun' hQ h => exact .ok (hact.trans hrun) (hact'.trans hrun') hQ h
  | error hrun hrun' h => exact .error (hact.trans hrun) (hact'.trans hrun') h

theorem bind {f f' : α → VolumeM β} (hact : Paces sb act act' v v' Q)
    (hf : ∀ x u u', Q x → Abreast sb u u' → Paces sb (f x) (f' x) u u' R) :
    Paces sb (act >>= f) (act' >>= f') v v' R := by
  cases hact with
  | ok hrun hrun' hQ h => exact (hf _ _ _ hQ h).of_eq (bind_of_ok hrun) (bind_of_ok hrun')
  | error hrun hrun' h => exact .error (bind_of_error hrun) (bind_of_error hrun') h

theorem get_bind {f f' : Volume → VolumeM β} (h : Paces sb (f v) (f' v') v v' R) :
    Paces sb (get >>= f) (get >>= f') v v' R := h.of_eq rfl rfl

theorem tryCatch {handler handler' : StoreError → VolumeM α} (hact : Paces sb act act' v v' Q)
    (hh : ∀ e u u', Abreast sb u u' → Paces sb (handler e) (handler' e) u u' Q) :
    Paces sb (MonadExcept.tryCatch act handler) (MonadExcept.tryCatch act' handler') v v' Q := by
  cases hact with
  | ok hrun hrun' hQ h => exact .ok (catch_of_ok hrun) (catch_of_ok hrun') hQ h
  | error hrun hrun' h => exact (hh _ _ _ h).of_eq (catch_of_error hrun) (catch_of_error hrun')

theorem look (h : Abreast sb v v') {f f' : Volume → Except StoreError α} (hf : f' v' = f v)
    (hQ : ∀ x, f v = .ok x → Q x) : Paces sb (look f) (Volume.look f') v v' Q := by
  cases hrun : f v with
  | ok x => exact .ok (by rw [Volume.look, hrun]) (by rw [Volume.look, hf, hrun]) (hQ x hrun) h.tick
  | error e => exact .error (by rw [Volume.look, hrun]) (by rw [Volume.look, hf, hrun]) h.tick

/-- Two things are read that are not the same, and what is done with them has one outcome. -/
theorem look_bind {f f' : Volume → Except StoreError α} {x x' : α} {g g' : α → VolumeM β}
    (hf : f v = .ok x) (hf' : f' v' = .ok x') (h : Paces sb (g x) (g' x') v.tick v'.tick R) :
    Paces sb (Volume.look f >>= g) (Volume.look f' >>= g') v v' R :=
  h.of_eq (bind_of_ok (by rw [Volume.look, hf])) (bind_of_ok (by rw [Volume.look, hf']))

end Paces

/-! ### The primitive changes -/

section Primitives

variable (h : Abreast sb v v')

include h

/-- Edits on both, after which the views differ in timestamps only. -/
theorem Abreast.wrote (he : Edit sb v n b a) (he' : Edit sb v' n b' a)
    (hview : (sb.view (v.device.image.write n b.bytes)).UpToTimes
      (sb.view (v'.device.image.write n b'.bytes))) : Abreast sb (v.wrote n b a) (v'.wrote n b' a) :=
  ⟨h.left.wrote he, h.right.wrote he', rfl, hview⟩

theorem paces_writeData (hs : s < sb.slots) (b : Block) :
    Paces sb (writeData s b) (writeData s b) v v' fun _ => True := by
  refine .get_bind ?_
  rw [h.superblock_eq, h.left.seated.superblock]
  have he : Edit sb v' (sb.dataBlock s) b v'.allocator := .data hs b
  have hview := h.view.setData s b
  rw [← Superblock.view_writeData _ h.left.seated.fits hs,
    ← Superblock.view_writeData _ h.right.seated.fits hs] at hview
  refine .ok (h.left.onDevice_writeBlock (.data hs b)) (h.right.onDevice_writeBlock he) trivial ?_
  rw [h.allocator] at he ⊢
  exact h.wrote (.data hs b) he hview

theorem paces_writeKey (hs : s < sb.slots) {e e' : KeyEntry} (he : e.UpToTime e') :
    Paces sb (onDevice (KeyTable.writeEntry ⟨sb.keysStart, sb.slots⟩ s e))
      (onDevice (KeyTable.writeEntry ⟨sb.keysStart, sb.slots⟩ s e')) v v' fun _ => True := by
  rw [onDevice_writeEntry hs, onDevice_writeEntry hs]
  have hedit : Edit sb v _ _ _ := .key hs e.toRecord
  have hedit' : Edit sb v' _ _ _ := .key hs e'.toRecord
  have hview := h.view.setKey s he
  rw [← Superblock.view_writeKey _ h.left.seated.fits hs,
    ← Superblock.view_writeKey _ h.right.seated.fits hs] at hview
  refine .ok (h.left.onDevice_write hedit) (h.right.onDevice_write hedit') trivial ?_
  rw [h.allocator] at hedit' ⊢
  exact h.tick.wrote hedit.tick hedit'.tick hview

theorem paces_writeShared {i : Nat} (hi : i < sb.dedupCapacity) (e : DedupEntry) :
    Paces sb (onDevice (DedupTable.writeEntry ⟨sb.dedupStart, sb.dedupBlocks⟩ i e))
      (onDevice (DedupTable.writeEntry ⟨sb.dedupStart, sb.dedupBlocks⟩ i e)) v v' fun _ => True := by
  have hedit : Edit sb v _ _ _ := .shared hi e.toRecord
  have hedit' : Edit sb v' _ _ _ := .shared hi e.toRecord
  have hview := h.view.setShared i e
  rw [← Superblock.view_writeShared _ h.left.seated.fits hi,
    ← Superblock.view_writeShared _ h.right.seated.fits hi] at hview
  refine .ok (h.left.onDevice_write hedit) (h.right.onDevice_write hedit') trivial ?_
  rw [h.allocator] at hedit' ⊢
  exact h.tick.wrote hedit.tick hedit'.tick hview

/-- A change of one bit, and of the free list by `f`. -/
theorem paces_assign {α : Type} {act : Allocator → DeviceM (α × Allocator)} (hs : s < sb.slots)
    (used : Bool) (f : List Nat → List Nat) {x : α} {Q : α → Prop} (hQ : Q x)
    (hact : act v.allocator = do
      let a ← v.allocator.assign s used
      return (x, { a with free := f a.free })) :
    Paces sb (changeAllocator act) (changeAllocator act) v v' Q := by
  have he : Edit sb v _ _ _ := .bit hs used (f v.allocator.free)
  have he' : Edit sb v' _ _ _ := .bit hs used (f v'.allocator.free)
  have hview := h.view.setUsed s used
  rw [← Superblock.view_writeUsed _ h.left.seated.fits hs used (h.left.seated.bytes_bitmapBlock hs used),
    ← Superblock.view_writeUsed _ h.right.seated.fits hs used (h.right.seated.bytes_bitmapBlock hs used)]
    at hview
  have hwrite := h.right.writeBlock_eq he'
  rw [h.allocator] at he' hview hwrite
  have hrun (d : Device) : act v.allocator d = _ := congrFun hact d
  simp only [bind, EStateM.bind, pure, EStateM.pure, h.left.seated.assign_apply hs used] at hrun
  have hleft := hrun v.device
  rw [h.left.writeBlock_eq he] at hleft
  have hright := (congrArg (act · v'.device) h.allocator).trans (hrun v'.device)
  rw [hwrite] at hright
  exact .ok (changeAllocator_of_ok hleft) (changeAllocator_of_ok hright) hQ (h.wrote he he' hview)

theorem paces_acquire : Paces sb acquire acquire v v' (· < sb.slots) := by
  rw [acquire_eq]
  rcases h.left.seated.take_cases with ⟨e, hfail⟩ | ⟨s, rest, hs, hact⟩
  · exact .error (changeAllocator_of_throw hfail) (changeAllocator_of_throw (h.allocator ▸ hfail)) h
  · exact paces_assign h hs true (fun _ => rest) hs hact

theorem paces_release (hs : s < sb.slots) : Paces sb (release s) (release s) v v' fun _ => True :=
  release_eq s ▸ paces_assign h (x := ()) hs false (s :: ·) trivial rfl

end Primitives

/-! ### The parts of the operations -/

section Parts

variable (h : Abreast sb v v')

include h

theorem paces_reclaim (hs : s < sb.slots) : Paces sb (reclaim s) (reclaim s) v v' fun _ => True :=
  (paces_writeData h hs .zero).bind fun _ _ _ _ h => paces_release h hs

theorem paces_discardSlot (hs : s < sb.slots) :
    Paces sb (discardSlot s) (discardSlot s) v v' fun _ => True := by
  refine .get_bind ?_
  rw [h.keyTable_eq, h.left.seated.keyTable_eq]
  exact (paces_writeKey h hs (.refl .free)).bind fun _ _ _ _ h => paces_reclaim h hs

theorem paces_unref (block : Nat) :
    Paces sb (onDevice (DedupTable.unref ⟨sb.dedupStart, sb.dedupBlocks⟩ block))
      (onDevice (DedupTable.unref ⟨sb.dedupStart, sb.dedupBlocks⟩ block)) v v' fun _ => True := by
  rw [DedupTable.unref, onDevice_bind, onDevice_look]
  refine (Paces.look h (h.locate_eq _) fun l hl => DedupTable.lt_of_locate hl).bind ?_
  rintro l u u' ⟨hfound, -⟩ h
  cases hl : l.found with
  | none => exact .throw h _
  | some item =>
    obtain ⟨i, e⟩ := item
    simp only [onDevice_bind]
    exact (paces_writeShared h (hfound i e hl) _).bind fun _ _ _ _ h => .pure h trivial

theorem paces_dropShared (block : Nat) :
    Paces sb (dropShared ⟨sb.dedupStart, sb.dedupBlocks⟩ block)
      (dropShared ⟨sb.dedupStart, sb.dedupBlocks⟩ block) v v' fun _ => True := by
  refine (paces_unref h block).bind fun left u u' _ h => ?_
  split
  · refine .get_bind ?_
    rw [h.superblock_eq, h.left.seated.superblock]
    cases hslot : sb.slotOfBlock block with
    | none => exact .pure h trivial
    | some s => exact paces_reclaim h (Superblock.slotOfBlock_eq_some_iff.1 hslot).1
  · exact .pure h trivial

theorem paces_share (content : Key) (candidate : Nat) :
    Paces sb (onDevice (DedupTable.share ⟨sb.dedupStart, sb.dedupBlocks⟩ content candidate))
      (onDevice (DedupTable.share ⟨sb.dedupStart, sb.dedupBlocks⟩ content candidate)) v v'
      fun _ => True := by
  rw [DedupTable.share, onDevice_bind, onDevice_look]
  refine (Paces.look h (h.locate_eq _) fun l hl => DedupTable.lt_of_locate hl).bind ?_
  rintro l u u' ⟨hfound, hfree⟩ h
  cases hl : l.found with
  | some item =>
    obtain ⟨i, e⟩ := item
    dsimp only
    split
    · simp only [onDevice_bind]
      exact (paces_writeShared h (hfound i e hl) _).bind fun _ _ _ _ h => .pure h trivial
    · exact .throw h _
  | none =>
    cases hfirst : l.firstFree with
    | none => exact .throw h _
    | some i =>
      simp only [onDevice_bind]
      exact (paces_writeShared h (hfree i hfirst) _).bind fun _ _ _ _ h => .pure h trivial

theorem paces_dismissCandidate (hs : s < sb.slots) (candidate p : Nat) :
    Paces sb (dismissCandidate s candidate p) (dismissCandidate s candidate p) v v' fun _ => True := by
  rw [dismissCandidate]
  split
  · exact paces_reclaim h hs
  · exact .pure h trivial

theorem paces_redirect (hs : s < sb.slots) (p : Nat) :
    Paces sb (redirect ⟨sb.dedupStart, sb.dedupBlocks⟩ s p)
      (redirect ⟨sb.dedupStart, sb.dedupBlocks⟩ s p) v v' fun _ => True := by
  refine (Paces.look (Q := fun _ => True) h (h.readPointer_eq hs) fun _ _ => trivial).bind
    fun old _ _ _ h => ?_
  refine (paces_writeData h hs _).bind fun _ _ _ _ h => ?_
  split
  · exact paces_dropShared h old
  · exact .pure h trivial

theorem paces_storeShared (hs : s < sb.slots) (b : Block) :
    Paces sb (storeShared ⟨sb.dedupStart, sb.dedupBlocks⟩ s b)
      (storeShared ⟨sb.dedupStart, sb.dedupBlocks⟩ s b) v v' fun _ => True := by
  rw [storeShared_eq]
  refine (paces_acquire h).bind fun c u u' hc h => ?_
  refine .get_bind ?_
  rw [h.superblock_eq, h.left.seated.superblock]
  refine (paces_writeData h hc b).bind fun _ x x' _ h => ?_
  refine (Paces.tryCatch (Q := fun _ => True) (paces_share h _ _) fun e y y' h =>
    (paces_reclaim h hc).bind fun _ _ _ _ h => .throw h e).bind fun p y y' _ h => ?_
  exact (paces_dismissCandidate h hc _ p).bind fun _ _ _ _ h => paces_redirect h hs p

theorem paces_store (hs : s < sb.slots) (b : Block) :
    Paces sb (store s b) (store s b) v v' fun _ => True := by
  refine .get_bind ?_
  rw [h.dedupTable_eq, h.left.seated.dedupTable_eq]
  cases sb.isDedup with
  | true => exact paces_storeShared h hs b
  | false => exact paces_writeData h hs b

end Parts

/-! ### The operations -/

section Operations

variable (h : Abreast sb v v')

include h

theorem paces_allocate (hs : s < sb.slots) (key : Key) (now now' : Timestamp) :
    Paces sb (onDevice (KeyTable.allocate ⟨sb.keysStart, sb.slots⟩ s key now))
      (onDevice (KeyTable.allocate ⟨sb.keysStart, sb.slots⟩ s key now')) v v' fun _ => True := by
  obtain ⟨e, e', hentry, hentry', he⟩ := h.exists_entry hs
  rw [KeyTable.allocate, KeyTable.allocate, onDevice_bind, onDevice_bind, onDevice_look]
  refine .look_bind hentry hentry' ?_
  rw [he.isFree_eq]
  split
  · exact paces_writeKey h.tick hs rfl
  · exact .throw h.tick _

/-- Replacing the entries of an active slot by two that differ in their times only. -/
theorem paces_amend (hs : s < sb.slots) {f f' : KeyEntry → KeyEntry}
    (hf : ∀ e e', e.UpToTime e' → (f e).UpToTime (f' e')) :
    Paces sb
      (onDevice (Device.look (KeyTable.activeEntry ⟨sb.keysStart, sb.slots⟩ · s) >>= fun e =>
        KeyTable.writeEntry ⟨sb.keysStart, sb.slots⟩ s (f e)))
      (onDevice (Device.look (KeyTable.activeEntry ⟨sb.keysStart, sb.slots⟩ · s) >>= fun e =>
        KeyTable.writeEntry ⟨sb.keysStart, sb.slots⟩ s (f' e))) v v' fun _ => True := by
  obtain ⟨e, e', hentry, hentry', he⟩ := h.exists_entry hs
  rw [onDevice_bind, onDevice_bind, onDevice_look]
  cases hactive : e.isActive with
  | true =>
    have hfound : KeyTable.activeEntry ⟨sb.keysStart, sb.slots⟩ v.device s = .ok e := by
      simp only [KeyTable.activeEntry, hentry, bind, Except.bind, hactive, if_true, pure, Except.pure]
    have hfound' : KeyTable.activeEntry ⟨sb.keysStart, sb.slots⟩ v'.device s = .ok e' := by
      simp only [KeyTable.activeEntry, hentry', bind, Except.bind, he.isActive_eq, hactive, if_true,
        pure, Except.pure]
    exact .look_bind hfound hfound' (paces_writeKey h.tick hs (hf e e' he))
  | false =>
    have hleft : KeyTable.activeEntry ⟨sb.keysStart, sb.slots⟩ v.device s =
        .error (.slotState s .active) := by
      simp [KeyTable.activeEntry, hentry, bind, Except.bind, hactive, throw, throwThe,
        MonadExceptOf.throw]
    have hright : KeyTable.activeEntry ⟨sb.keysStart, sb.slots⟩ v'.device s =
        .error (.slotState s .active) := by
      simp [KeyTable.activeEntry, hentry', bind, Except.bind, he.isActive_eq, hactive, throw, throwThe,
        MonadExceptOf.throw]
    exact (Paces.look (Q := fun _ => False) h (hright.trans hleft.symm) fun x hx => by
      rw [hleft] at hx
      cases hx).bind fun _ _ _ hno _ => hno.elim

theorem paces_create (key : Key) (now now' : Timestamp) :
    Paces sb (create key now) (create key now') v v' (· < sb.slots) := by
  refine (Paces.look (Q := fun _ => True) h (h.contains_eq key) fun _ _ => trivial).bind
    fun found u u' _ h => ?_
  split
  · exact .bind (Q := fun _ => False) (.throw h _) fun _ _ _ hno => hno.elim
  · refine (paces_acquire h).bind fun s x x' hs h => ?_
    refine .get_bind ?_
    rw [h.keyTable_eq, h.left.seated.keyTable_eq]
    exact (paces_allocate h hs key now now').bind fun _ _ _ _ h => .pure h hs

theorem paces_obtain (key : Key) (now now' : Timestamp) :
    Paces sb (obtain key now) (obtain key now') v v' (·.1 < sb.slots) := by
  refine (Paces.look (Q := fun x => x = v.lookup key) h (by rw [h.lookup_eq key])
    fun x hx => (Except.ok.inj hx).symm).bind ?_
  rintro _ u u' rfl h'
  split
  case h_1 s hs => exact .pure h' (h.left.seated.lt_of_lookup hs)
  case h_2 => exact (paces_create h' key now now').bind fun s _ _ hs h => .pure h hs
  case h_3 => exact .throw h' _

theorem paces_put (key : Key) (data : ByteArray) (created created' stored stored' : Timestamp) :
    Paces sb (put key data created stored) (put key data created' stored') v v' fun _ => True := by
  rw [put_eq, put_eq]
  split
  · exact .throw h _
  refine (paces_obtain h key created created').bind fun x u u' hs h => ?_
  refine (Paces.tryCatch (Q := fun _ => True) (paces_store h hs _) fun e x x' h => ?_).bind
    fun _ x x' _ h => ?_
  · split
    · exact (Paces.tryCatch (Q := fun _ => True) (paces_discardSlot h hs) fun _ _ _ h =>
        .pure h trivial).bind fun _ _ _ _ h => .throw h e
    · exact .throw h e
  · refine .get_bind ?_
    rw [h.keyTable_eq, h.left.seated.keyTable_eq]
    exact (paces_amend h hs fun e e' he => he.setTime stored stored').bind fun _ _ _ _ h =>
      .pure h trivial

theorem paces_remove (key : Key) : Paces sb (remove key) (remove key) v v' fun _ => True := by
  refine (Paces.look h (h.lookup_eq key) fun s hs => h.left.seated.lt_of_lookup hs).bind
    fun s u u' hs h => ?_
  refine .get_bind ?_
  rw [h.dedupTable_eq, h.left.seated.dedupTable_eq]
  cases sb.isDedup with
  | false => exact paces_discardSlot h hs
  | true =>
    refine (Paces.look (Q := fun _ => True) h (h.readPointer_eq hs) fun _ _ => trivial).bind
      fun pointer _ _ _ h => ?_
    refine (paces_discardSlot h hs).bind fun _ _ _ _ h => ?_
    split
    · exact paces_dropShared h pointer
    · exact .pure h trivial

theorem paces_rename (old new : Key) :
    Paces sb (rename old new) (rename old new) v v' fun _ => True := by
  refine (Paces.look h (h.lookup_eq old) fun s hs => h.left.seated.lt_of_lookup hs).bind
    fun s u u' hs h => ?_
  split
  · refine (Paces.look (Q := fun _ => True) h (h.contains_eq new) fun _ _ => trivial).bind
      fun found x x' _ h => ?_
    split
    · exact .bind (Q := fun _ => False) (.throw h _) fun _ _ _ hno => hno.elim
    · refine .get_bind ?_
      rw [h.keyTable_eq, h.left.seated.keyTable_eq]
      exact paces_amend h hs fun e e' he => he.setKey new
  · exact .pure h trivial

end Operations

end Volume

end BlockStore
