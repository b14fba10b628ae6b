import BlockStore.Proofs.InStep
import BlockStore.Proofs.Ownership

/-!
# Dedup entries that hold nothing

One flag says whether a dedup entry is in use. An entry without the flag is free whatever else it says,
so a table could be full of leftovers that no query ever shows. It is not: what an operation writes to
the table is either an entry in use or the free entry itself, down to the last bit.

That needs no more than that the memory belongs to the device. Pointers and counts may be wrong, and the
device may fail at any point.

## Main definitions

* `View.Swept`: what is not in use is the free entry.
* `Volume.Swept`: a mounted volume with such a table.
* `Volume.Sweeps`: an action that leaves one, however it ends.

## Main results

* `Volume.sweeps_unref`, `sweeps_share`: the two actions that write dedup entries.
* `Volume.sweeps_create`, `sweeps_put`, `sweeps_remove`, `sweeps_rename`: the operations.
-/

namespace BlockStore

namespace DedupTable

variable {c : Criterion}

theorem accepts_of_locateIn {l : List (Except StoreError (Nat × DedupEntry))} {free : Option Nat}
    {located : Located} (h : locateIn c l free = .ok located) {i : Nat} {e : DedupEntry}
    (hfound : located.found = some (i, e)) : c.accepts e := by
  induction l generalizing free with
  | nil =>
    cases h
    cases hfound
  | cons x l ih =>
    cases x with
    | error _ => cases h
    | ok item =>
      rw [locateIn] at h
      split at h
      · rename_i haccepts
        cases h
        cases hfound
        exact haccepts
      · exact ih h

/-- The entry that a scan finds is in use. -/
theorem isActive_of_locate {t : DedupTable} {d : Device} {located : Located}
    (h : t.locate d c = .ok located) {i : Nat} {e : DedupEntry} (hfound : located.found = some (i, e)) :
    e.isActive := by
  rw [locate_eq_locateIn] at h
  have haccepts := accepts_of_locateIn h hfound
  simp only [Criterion.accepts, Bool.and_eq_true] at haccepts
  exact haccepts.1

end DedupTable

namespace View

variable {w w' : View}

/-- A dedup entry that is not in use is the free entry. -/
def Swept (w : View) : Prop := ∀ i, ¬ w.Held i → w.shared i = .free

theorem swept_blank : blank.Swept := fun _ _ => rfl

namespace Swept

theorem congr (h : w.Swept) (hshared : w'.shared = w.shared) : w'.Swept := by
  intro i hi
  rw [Held, hshared] at hi
  rw [hshared]
  exact h i hi

theorem setShared (h : w.Swept) (i : Nat) {e : DedupEntry} (he : e = .free ∨ e.isActive) :
    (w.setShared i e).Swept := by
  intro j hj
  rw [held_setShared] at hj
  rw [shared_setShared]
  split at hj
  · rw [if_pos ‹_›]
    exact he.resolve_right hj
  · rw [if_neg ‹_›]
    exact h j hj

end Swept

end View

namespace Volume

variable {sb : Superblock} {v u : Volume} {s : Nat}

/-- A volume whose memory belongs to its device, with no leftovers in the dedup table. -/
structure Swept (sb : Superblock) (v : Volume) : Prop where
  seated : v.Seated sb
  view : (sb.view v.device.image).Swept

/-- Such a volume is left, and a result satisfies `Q`. -/
inductive Sweeps (sb : Superblock) {α : Type} (act : VolumeM α) (v : Volume) (Q : α → Prop) : Prop where
  /-- The action succeeds. -/
  | ok {a : α} {u : Volume} (hrun : act v = .ok a u) (hu : u.Swept sb) (hQ : Q a)
  /-- It fails. -/
  | error {e : StoreError} {u : Volume} (hrun : act v = .error e u) (hu : u.Swept sb)

theorem Swept.tick (h : v.Swept sb) : v.tick.Swept sb := ⟨h.seated.tick, h.view⟩

/-- An edit that leaves no leftovers. -/
theorem Swept.wrote (h : v.Swept sb) {n : Nat} {b : Block} {a : Allocator} (he : Edit sb v n b a)
    (hview : (sb.view (v.device.image.write n b.bytes)).Swept) : (v.wrote n b a).Swept sb :=
  ⟨h.seated.edit he, hview⟩

namespace Sweeps

variable {α β : Type} {act : VolumeM α} {Q Q' : α → Prop} {R : β → Prop}

theorem pure (h : v.Swept sb) {a : α} (hQ : Q a) : Sweeps sb (pure a) v Q := .ok rfl h hQ

theorem throw (h : v.Swept sb) (e : StoreError) : Sweeps sb (throw e : VolumeM α) v Q := .error rfl h

theorem bind {f : α → VolumeM β} (hact : Sweeps sb act v Q)
    (hf : ∀ a u, Q a → u.Swept sb → Sweeps sb (f a) u R) : Sweeps sb (act >>= f) v R := by
  cases hact with
  | ok hrun hu hQ =>
    cases hf _ _ hQ hu with
    | ok hrest ht hR => exact .ok ((bind_of_ok hrun).trans hrest) ht hR
    | error hrest ht => exact .error ((bind_of_ok hrun).trans hrest) ht
  | error hrun hu => exact .error (bind_of_error hrun) hu

theorem get_bind {f : Volume → VolumeM β} (h : Sweeps sb (f v) v R) : Sweeps sb (get >>= f) v R := by
  cases h with
  | ok hrun hu hR => exact .ok ((get_bind_apply f v).trans hrun) hu hR
  | error hrun hu => exact .error ((get_bind_apply f v).trans hrun) hu

theorem tryCatch {handler : StoreError → VolumeM α} (hact : Sweeps sb act v Q)
    (hh : ∀ e u, u.Swept sb → Sweeps sb (handler e) u Q) :
    Sweeps sb (MonadExcept.tryCatch act handler) v Q := by
  cases hact with
  | ok hrun hu hQ => exact .ok (catch_of_ok hrun) hu hQ
  | error hrun hu =>
    cases hh _ _ hu with
    | ok hrest ht hQ => exact .ok ((catch_of_error hrun).trans hrest) ht hQ
    | error hrest ht => exact .error ((catch_of_error hrun).trans hrest) ht

theorem look (h : v.Swept sb) {f : Volume → Except StoreError α} (hQ : ∀ a, f v = .ok a → Q a) :
    Sweeps sb (Volume.look f) v Q := by
  cases hf : f v with
  | ok a => exact .ok (by rw [Volume.look, hf]) h.tick (hQ a hf)
  | error e => exact .error (by rw [Volume.look, hf]) h.tick

theorem after {o : Operation} {Q : Unit → Prop} (h : Sweeps sb o.run v Q) : (o.after v).Swept sb := by
  rw [Operation.after]
  cases h with
  | ok hrun hu =>
    rw [hrun]
    exact hu
  | error hrun hu =>
    rw [hrun]
    exact hu

end Sweeps

/-! ### The primitive changes -/

section Primitives

variable (h : v.Swept sb)

include h

theorem sweeps_writeBlock {n : Nat} {b : Block} (he : Edit sb v n b v.allocator)
    (hview : (sb.view (v.device.image.write n b.bytes)).Swept) :
    Sweeps sb (onDevice (Device.writeBlock n b)) v fun _ => True := by
  rcases Device.writeBlock_cases v.device n b with hok | ⟨e, herror⟩
  · have hrun : onDevice (Device.writeBlock n b) v = .ok () (v.wrote n b v.allocator) := by
      simp only [onDevice, hok]
      rfl
    exact .ok hrun (h.wrote he hview) trivial
  · exact .error (onDevice_of_error herror) h.tick

theorem sweeps_writeData (hs : s < sb.slots) (b : Block) :
    Sweeps sb (writeData s b) v fun _ => True := by
  refine .get_bind ?_
  rw [h.seated.superblock]
  refine sweeps_writeBlock h (.data hs b) ?_
  rw [Superblock.view_writeData _ h.seated.fits hs]
  exact h.view.congr (View.shared_setData ..)

/-- Replacing one record of a table: its block is read, and written back with the record. -/
theorem sweeps_writeRecord {t : RecordTable} {i : Nat} {rec : Record}
    (he : Edit sb v (t.blockOf i)
      ((v.device.image.block (t.blockOf i)).setRecord (i % recordsPerBlock) rec) v.allocator)
    (hview : (sb.view (v.device.image.write (t.blockOf i)
      ((v.device.image.block (t.blockOf i)).setRecord (i % recordsPerBlock) rec).bytes)).Swept) :
    Sweeps sb (onDevice (t.write i rec)) v fun _ => True := by
  rw [RecordTable.write, onDevice_bind, onDevice_look]
  cases hread : v.device.readBlock (t.blockOf i) with
  | error e =>
    exact .bind (Q := fun _ => False) (.look h fun _ hb => by cases hread.symm.trans hb)
      fun _ _ hq => hq.elim
  | ok b =>
    obtain rfl := Device.eq_of_readBlock hread
    cases sweeps_writeBlock h.tick he.tick hview with
    | ok hrun hu hQ => exact .ok ((bind_of_ok (by rw [look, hread])).trans hrun) hu hQ
    | error hrun hu => exact .error ((bind_of_ok (by rw [look, hread])).trans hrun) hu

theorem sweeps_writeKey (hs : s < sb.slots) (e : KeyEntry) :
    Sweeps sb (onDevice (KeyTable.writeEntry ⟨sb.keysStart, sb.slots⟩ s e)) v fun _ => True := by
  rw [onDevice_writeEntry hs]
  refine sweeps_writeRecord h (.key hs e.toRecord) ?_
  have hview := Superblock.view_writeKey v.device.image h.seated.fits hs e
  exact h.view.congr ((congrArg View.shared hview).trans (View.shared_setKey ..))

/-- What is written to the dedup table is the free entry or an entry in use. -/
theorem sweeps_writeShared {i : Nat} (hi : i < sb.dedupCapacity) {e : DedupEntry}
    (he : e = .free ∨ e.isActive) :
    Sweeps sb (onDevice (DedupTable.writeEntry ⟨sb.dedupStart, sb.dedupBlocks⟩ i e)) v
      fun _ => True := by
  refine sweeps_writeRecord h (.shared hi e.toRecord) ?_
  have hview := Superblock.view_writeShared v.device.image h.seated.fits hi e
  exact hview.symm ▸ h.view.setShared i he

/-- A change of one bit, and of the free list by `f`. -/
theorem sweeps_assign {α : Type} {act : Allocator → DeviceM (α × Allocator)} (hs : s < sb.slots)
    (used : Bool) (f : List Nat → List Nat) {x : α} {Q : α → Prop} (hQ : Q x)
    (hact : act v.allocator = do
      let a ← v.allocator.assign s used
      return (x, { a with free := f a.free })) : Sweeps sb (changeAllocator act) v Q := by
  have he : Edit sb v _ _ _ := .bit hs used (f v.allocator.free)
  have hrun : act v.allocator v.device = _ := congrFun hact v.device
  simp only [Bind.bind, EStateM.bind, Pure.pure, EStateM.pure, h.seated.assign_apply hs used] at hrun
  rcases Device.writeBlock_cases v.device (sb.bitmapStart + s / 8 / blockSize)
      (bitmapBlock (assignSlot v.allocator.bitmap s used) s) with hok | ⟨e, herror⟩
  · rw [hok] at hrun
    refine .ok (changeAllocator_of_ok hrun) (h.wrote he ?_) hQ
    rw [Superblock.view_writeUsed _ h.seated.fits hs used (h.seated.bytes_bitmapBlock hs used)]
    exact h.view.congr (View.shared_setUsed ..)
  · rw [herror] at hrun
    exact .error (changeAllocator_of_error hrun) h.tick

theorem sweeps_acquire : Sweeps sb acquire v (· < sb.slots) := by
  rw [acquire_eq]
  rcases h.seated.take_cases with ⟨e, hfail⟩ | ⟨s, rest, hs, hact⟩
  · exact .error (changeAllocator_of_throw hfail) h
  · exact sweeps_assign h hs true (fun _ => rest) hs hact

theorem sweeps_release (hs : s < sb.slots) : Sweeps sb (release s) v fun _ => True :=
  release_eq s ▸ sweeps_assign h (x := ()) hs false (s :: ·) trivial rfl

/-! ### Giving back -/

theorem sweeps_reclaim (hs : s < sb.slots) : Sweeps sb (reclaim s) v fun _ => True :=
  (sweeps_writeData h hs .zero).bind fun _ _ _ hu => sweeps_release hu hs

theorem sweeps_discardSlot (hs : s < sb.slots) : Sweeps sb (discardSlot s) v fun _ => True := by
  refine .get_bind ?_
  rw [h.seated.keyTable_eq]
  exact (sweeps_writeKey h hs .free).bind fun _ _ _ hu => sweeps_reclaim hu hs

/-- A scan of the dedup table finds an entry in use, and hands out the index of an entry. -/
theorem sweeps_locate (c : Criterion) :
    Sweeps sb (look fun v => DedupTable.locate ⟨sb.dedupStart, sb.dedupBlocks⟩ v.device c) v fun l =>
      (∀ i e, l.found = some (i, e) → i < sb.dedupCapacity ∧ e.isActive) ∧
        ∀ i, l.firstFree = some i → i < sb.dedupCapacity := by
  refine .look h fun l hl => ?_
  obtain ⟨hfound, hfree⟩ := DedupTable.lt_of_locate hl
  exact ⟨fun i e he => ⟨hfound i e he, DedupTable.isActive_of_locate hl he⟩, hfree⟩

/-- Dropping a reference frees the entry with the last one. -/
theorem sweeps_unref (b : Nat) :
    Sweeps sb (onDevice (DedupTable.unref ⟨sb.dedupStart, sb.dedupBlocks⟩ b)) v fun _ => True := by
  rw [DedupTable.unref, onDevice_bind, onDevice_look]
  refine (sweeps_locate h _).bind ?_
  rintro l u ⟨hfound, -⟩ hu
  cases hl : l.found with
  | none => exact .throw hu _
  | some item =>
    obtain ⟨i, e⟩ := item
    obtain ⟨hi, hactive⟩ := hfound i e hl
    simp only [onDevice_bind]
    refine (sweeps_writeShared hu hi ?_).bind fun _ _ _ ht => .pure ht trivial
    split
    · exact .inl rfl
    · exact .inr hactive

theorem sweeps_dropShared (b : Nat) :
    Sweeps sb (dropShared ⟨sb.dedupStart, sb.dedupBlocks⟩ b) v fun _ => True := by
  refine (sweeps_unref h b).bind fun left u _ hu => ?_
  split
  · refine .get_bind ?_
    rw [hu.seated.superblock]
    cases hslot : sb.slotOfBlock b with
    | none => exact .pure hu trivial
    | some s => exact sweeps_reclaim hu (Superblock.slotOfBlock_eq_some_iff.1 hslot).1
  · exact .pure hu trivial

/-! ### Storing -/

/-- Taking a reference counts it in the entry that is there, or makes a new one. -/
theorem sweeps_share (content : Key) (candidate : Nat) :
    Sweeps sb (onDevice (DedupTable.share ⟨sb.dedupStart, sb.dedupBlocks⟩ content candidate)) v
      fun _ => True := by
  rw [DedupTable.share, onDevice_bind, onDevice_look]
  refine (sweeps_locate h _).bind ?_
  rintro l u ⟨hfound, hfree⟩ hu
  cases hl : l.found with
  | some item =>
    obtain ⟨i, e⟩ := item
    obtain ⟨hi, hactive⟩ := hfound i e hl
    dsimp only
    split
    · simp only [onDevice_bind]
      exact (sweeps_writeShared hu hi (e := shareEntry e) (.inr hactive)).bind
        fun _ _ _ ht => .pure ht trivial
    · exact .throw hu _
  | none =>
    cases hfirst : l.firstFree with
    | none => exact .throw hu _
    | some i =>
      simp only [onDevice_bind]
      exact (sweeps_writeShared hu (hfree i hfirst) (.inr (isActive_newEntry content candidate))).bind
        fun _ _ _ ht => .pure ht trivial

theorem sweeps_dismissCandidate (hs : s < sb.slots) (candidate p : Nat) :
    Sweeps sb (dismissCandidate s candidate p) v fun _ => True := by
  rw [dismissCandidate]
  split
  · exact sweeps_reclaim h hs
  · exact .pure h trivial

theorem sweeps_redirect (hs : s < sb.slots) (p : Nat) :
    Sweeps sb (redirect ⟨sb.dedupStart, sb.dedupBlocks⟩ s p) v fun _ => True := by
  refine (Sweeps.look (Q := fun _ => True) h fun _ _ => trivial).bind fun old _ _ hu => ?_
  refine (sweeps_writeData hu hs _).bind fun _ _ _ hx => ?_
  split
  · exact sweeps_dropShared hx old
  · exact .pure hx trivial

theorem sweeps_storeShared (hs : s < sb.slots) (b : Block) :
    Sweeps sb (storeShared ⟨sb.dedupStart, sb.dedupBlocks⟩ s b) v fun _ => True := by
  rw [storeShared_eq]
  refine (sweeps_acquire h).bind fun c u hc hu => ?_
  refine .get_bind ?_
  rw [hu.seated.superblock]
  refine (sweeps_writeData hu hc b).bind fun _ x _ hx => ?_
  refine (Sweeps.tryCatch (Q := fun _ => True) (sweeps_share hx _ _) fun e y hy =>
    (sweeps_reclaim hy hc).bind fun _ _ _ hz => .throw hz e).bind fun p y _ hy => ?_
  exact (sweeps_dismissCandidate hy hc _ p).bind fun _ _ _ hz => sweeps_redirect hz hs p

theorem sweeps_store (hs : s < sb.slots) (b : Block) : Sweeps sb (store s b) v fun _ => True := by
  refine .get_bind ?_
  rw [h.seated.dedupTable_eq]
  cases sb.isDedup with
  | true => exact sweeps_storeShared h hs b
  | false => exact sweeps_writeData h hs b

/-! ### The operations -/

/-- An action that reads something off the device before it replaces the entry of a slot. -/
theorem sweeps_amend {α : Type} (hs : s < sb.slots) (f : Device → Except StoreError α)
    (g : α → KeyEntry) :
    Sweeps sb (onDevice (Device.look f >>= fun a =>
      KeyTable.writeEntry ⟨sb.keysStart, sb.slots⟩ s (g a))) v fun _ => True := by
  rw [onDevice_bind, onDevice_look]
  exact (Sweeps.look (Q := fun _ => True) h fun _ _ => trivial).bind
    fun _ _ _ hu => sweeps_writeKey hu hs _

theorem sweeps_allocate (hs : s < sb.slots) (key : Key) (now : Timestamp) :
    Sweeps sb (onDevice (KeyTable.allocate ⟨sb.keysStart, sb.slots⟩ s key now)) v fun _ => True := by
  rw [KeyTable.allocate, onDevice_bind, onDevice_look]
  refine (Sweeps.look (Q := fun _ => True) h fun _ _ => trivial).bind fun e u _ hu => ?_
  split
  · exact sweeps_writeKey hu hs _
  · exact .throw hu _

theorem sweeps_create (key : Key) (now : Timestamp) : Sweeps sb (create key now) v (· < sb.slots) := by
  refine (Sweeps.look (Q := fun _ => True) h fun _ _ => trivial).bind fun found u _ hu => ?_
  split
  · exact .bind (Q := fun _ => False) (.throw hu _) fun _ _ hq => hq.elim
  · refine (sweeps_acquire hu).bind fun s x hs hx => ?_
    refine .get_bind ?_
    rw [hx.seated.keyTable_eq]
    exact (sweeps_allocate hx hs key now).bind fun _ _ _ hy => .pure hy hs

theorem sweeps_obtain (key : Key) (now : Timestamp) :
    Sweeps sb (obtain key now) v (·.1 < sb.slots) := by
  refine (Sweeps.look (Q := fun a => a = v.lookup key) h fun a ha => (Except.ok.inj ha).symm).bind ?_
  rintro _ u rfl hu
  split
  case h_1 s hs => exact .pure hu (h.seated.lt_of_lookup hs)
  case h_2 => exact (sweeps_create hu key now).bind fun s _ hs ht => .pure ht hs
  case h_3 => exact .throw hu _

theorem sweeps_put (key : Key) (data : ByteArray) (created stored : Timestamp) :
    Sweeps sb (put key data created stored) v fun _ => True := by
  rw [put_eq]
  split
  · exact .throw h _
  refine (sweeps_obtain h key created).bind fun a u hs hu => ?_
  refine (Sweeps.tryCatch (Q := fun _ => True) (sweeps_store hu hs _) fun e x hx => ?_).bind
    fun _ x _ hx => ?_
  · split
    · exact (Sweeps.tryCatch (Q := fun _ => True) (sweeps_discardSlot hx hs)
        fun _ _ hy => .pure hy trivial).bind fun _ _ _ hy => .throw hy e
    · exact .throw hx e
  · refine .get_bind ?_
    rw [hx.seated.keyTable_eq]
    exact (sweeps_amend hx hs _ _).bind fun _ _ _ hy => .pure hy trivial

theorem sweeps_remove (key : Key) : Sweeps sb (remove key) v fun _ => True := by
  refine (Sweeps.look h fun s hs => h.seated.lt_of_lookup hs).bind fun s u hs hu => ?_
  refine .get_bind ?_
  rw [hu.seated.dedupTable_eq]
  cases sb.isDedup with
  | false => exact sweeps_discardSlot hu hs
  | true =>
    refine (Sweeps.look (Q := fun _ => True) hu fun _ _ => trivial).bind fun pointer _ _ hx => ?_
    refine (sweeps_discardSlot hx hs).bind fun _ _ _ hy => ?_
    split
    · exact sweeps_dropShared hy pointer
    · exact .pure hy trivial

theorem sweeps_rename (old new : Key) : Sweeps sb (rename old new) v fun _ => True := by
  refine (Sweeps.look h fun s hs => h.seated.lt_of_lookup hs).bind fun s u hs hu => ?_
  split
  · refine (Sweeps.look (Q := fun _ => True) hu fun _ _ => trivial).bind fun found x _ hx => ?_
    split
    · exact .bind (Q := fun _ => False) (.throw hx _) fun _ _ hq => hq.elim
    · refine .get_bind ?_
      rw [hx.seated.keyTable_eq]
      exact sweeps_amend hx hs _ _
  · exact .pure hu trivial

end Primitives

end Volume

end BlockStore
