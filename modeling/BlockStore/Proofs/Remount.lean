import BlockStore.Proofs.Reachable

/-!
# Mounting again

What a volume keeps in memory besides its device is the superblock, the bitmap and the free list. Each of
them can be had back from the device, however many transfers have failed before: the bitmap is the one on
the device, and the free list has the slots whose bit is clear. Only its order is lost. A volume hands out
last the slots that were free from the start and first those given back last; after it has been mounted
again the lowest slot comes first.

No query looks at the order of the free list, and neither does a check that repairs nothing. So none of
them can tell whether the volume has been mounted again.

## Main definitions

* `Volume.on`, `Volume.withFree`: a volume with another device under it, and with another free list.
* `Volume.Blind`: an action that the free list means nothing to.
* `Volume.acquireMany`: slots taken one after the other.
* `Volume.Remounts`: a volume stands for another one that has been unmounted.

## Main results

* `Volume.blind_checkVisiting`: a check without repair is such an action.
* `Volume.acquireMany_eq`: slots are taken in the order of the free list.
* `Volume.recoverable_of_reachable`: every state that comes about can be had back from its device.
-/

namespace BlockStore

namespace Volume

/-- What is in memory, with this device under it. -/
def on (v : Volume) (d : Device) : Volume := { v with device := d }

/-- The volume with another free list. -/
def withFree (v : Volume) (free : List Nat) : Volume :=
  { v with allocator := { v.allocator with free } }

/-- What an action answers. -/
def answer {α : Type} (act : VolumeM α) (v : Volume) : Except StoreError α :=
  match act v with
  | .ok a _ => .ok a
  | .error e _ => .error e

/-! ### Actions that the free list means nothing to -/

/-- The action neither looks at the free list nor changes it. -/
def Blind {α : Type} (act : VolumeM α) : Prop :=
  ∀ (v : Volume) (free : List Nat),
    act (v.withFree free) =
      match act v with
      | .ok a u => .ok a (u.withFree free)
      | .error e u => .error e (u.withFree free)

namespace Blind

variable {α β : Type} {act : VolumeM α} {f : α → VolumeM β}

theorem answer_eq (h : Blind act) (v : Volume) (free : List Nat) :
    answer act (v.withFree free) = answer act v := by
  rw [answer, h v free, answer]
  cases act v <;> rfl

theorem pure (a : α) : Blind (Pure.pure a : VolumeM α) := fun _ _ => rfl

theorem bind (hact : Blind act) (hf : ∀ a, Blind (f a)) : Blind (act >>= f) := by
  intro v free
  have hstart := hact v free
  cases hrun : act v with
  | ok a u =>
    rw [hrun] at hstart
    rw [bind_of_ok hstart, bind_of_ok hrun, hf a u free]
  | error e u =>
    rw [hrun] at hstart
    rw [bind_of_error hstart, bind_of_error hrun]

theorem look {f : Volume → Except StoreError α} (hf : ∀ v free, f (withFree v free) = f v) :
    Blind (look f) := by
  intro v free
  simp only [Volume.look, hf]
  cases f v <;> rfl

/-- Something is read off the memory that is not the free list. -/
theorem get_bind {f : Volume → VolumeM β} (hfree : ∀ v free, f (withFree v free) = f v)
    (hf : ∀ v, Blind (f v)) : Blind (get >>= f) := by
  intro v free
  rw [get_bind_apply, get_bind_apply, hfree]
  exact hf v v free

end Blind

theorem blind_checkPointers (blocks slots : List Nat) : Blind (checkPointers false blocks slots) := by
  induction slots with
  | nil => exact .pure _
  | cons s slots ih =>
    refine .bind (.look fun _ _ => rfl) fun pointer => ?_
    split
    · exact ih
    split
    · exact ih.bind fun _ => .pure _
    · exact ih.bind fun _ => .pure _

theorem blind_checkCounts (table : DedupTable) (pointers : List Nat) (blocks : List SharedBlock) :
    Blind (checkCounts false table pointers blocks) := by
  induction blocks with
  | nil => exact .pure _
  | cons shared blocks ih =>
    rw [checkCounts]
    split
    · exact ih
    · exact ih.bind fun _ => .pure _

theorem blind_checkShared (visit : List SharedBlock → List SharedBlock) (table : DedupTable)
    (logical : List Nat) : Blind (checkShared visit false table logical) := by
  refine .bind (.look fun _ _ => rfl) fun entries => ?_
  refine .get_bind (fun _ _ => rfl) fun v => ?_
  refine .bind (blind_checkPointers _ _) fun _ => ?_
  refine .bind (blind_checkCounts _ _ _) fun _ => ?_
  exact .bind (.pure _) fun _ => .pure _

theorem blind_checkBitmap (referenced slots : List Nat) :
    Blind (checkBitmap false referenced slots) := by
  induction slots with
  | nil => exact .pure _
  | cons s slots ih =>
    refine .get_bind (fun _ _ => rfl) fun v => ?_
    dsimp only
    split
    · exact ih.bind fun _ => .pure _
    split
    · exact ih.bind fun _ => .pure _
    · exact ih

theorem blind_checkSlots (roles : List (Nat × SlotRole)) (shared : SharedFindings) :
    Blind (checkSlots false roles shared) :=
  .get_bind (fun _ _ => rfl) fun _ => (blind_checkBitmap _ _).bind fun _ => .pure _

/-- A check without repair compares bits, and does not look at the free list. -/
theorem blind_checkVisiting (visit : List SharedBlock → List SharedBlock) :
    Blind (checkVisiting visit false) := by
  refine .bind (.look fun _ _ => rfl) fun entries => ?_
  refine .get_bind (fun _ _ => rfl) fun v => ?_
  cases v.dedupTable with
  | none => exact blind_checkSlots _ _
  | some table => exact (blind_checkShared visit table _).bind fun _ => blind_checkSlots _ _

/-! ### The order of the free list -/

/-- Takes `n` free slots, one after the other. -/
def acquireMany : (n : Nat) → VolumeM (List Nat)
  | 0 => return []
  | n + 1 => do
    let slot ← acquire
    let slots ← acquireMany n
    return slot :: slots

/-- Slots are taken in the order of the free list. -/
theorem free_of_acquire {v u : Volume} {slot : Nat} (h : acquire v = .ok slot u) :
    v.allocator.free = slot :: u.allocator.free := by
  rw [acquire_eq, changeAllocator_apply, Allocator.take] at h
  cases hfree : v.allocator.free with
  | nil =>
    rw [hfree] at h
    cases h
  | cons s rest =>
    simp only [hfree, bind, EStateM.bind] at h
    cases hassign : v.allocator.assign s true v.device with
    | error e d => simp [hassign] at h
    | ok a d =>
      simp only [hassign] at h
      cases h
      rfl

theorem free_of_acquireMany {v u : Volume} {n : Nat} {slots : List Nat}
    (h : acquireMany n v = .ok slots u) : slots = v.allocator.free.take n := by
  induction n generalizing v slots with
  | zero =>
    cases h
    rfl
  | succ n ih =>
    cases hfirst : acquire v with
    | error e t =>
      rw [acquireMany, bind_of_error hfirst] at h
      cases h
    | ok slot t =>
      rw [acquireMany, bind_of_ok hfirst] at h
      cases hrest : acquireMany n t with
      | error e t' =>
        rw [bind_of_error hrest] at h
        cases h
      | ok rest t' =>
        rw [bind_of_ok hrest] at h
        cases h
        rw [free_of_acquire hfirst, List.take_succ_cons, ih hrest]

variable {sb : Superblock} {r : Prop} {v u : Volume} {w : View} {free : List Nat} {d : Device}

/-- On a reliable device a free slot can be taken as long as there is one. -/
theorem Shows.acquireMany_eq (h : v.Shows sb r w free) (hr : r) {n : Nat} (hn : n ≤ free.length) :
    ∃ u, acquireMany n v = .ok (free.take n) u := by
  induction n generalizing v w free with
  | zero => exact ⟨v, rfl⟩
  | succ n ih =>
    have hrun := runs_acquire (C := fun _ => True) h fun _ _ _ => trivial
    rcases hrun.result with ⟨slot, t, hfirst, -, rest, rfl, ht⟩ | ⟨e, t, -, -, -, herror⟩
    · obtain ⟨u, hrest⟩ := ih ht (Nat.le_of_succ_le_succ hn)
      refine ⟨u, ?_⟩
      rw [acquireMany, bind_of_ok hfirst, bind_of_ok hrest, List.take_succ_cons]
      rfl
    · rw [(herror hr).2] at hn
      exact absurd hn (Nat.not_succ_le_zero n)

/-! ### A volume in the place of another one -/

/-- The volume `u` stands for `v`, which has been unmounted. It has the same free slots, the lowest
one first, and it answers every question as `v` does on the same device. -/
structure Remounts (u v : Volume) : Prop where
  device : u.device = v.device
  superblock : u.superblock = v.superblock
  bitmap : u.allocator.bitmap = v.allocator.bitmap
  /-- The free slots are the same. -/
  free : u.allocator.free.Perm v.allocator.free
  /-- The lowest one comes first. -/
  sorted : u.allocator.free.Pairwise (· < ·)
  /-- Slots are handed out in that order. -/
  handed_out : ∀ n slots t, acquireMany n u = .ok slots t → slots = u.allocator.free.take n
  /-- No free slot is withheld. -/
  hands_out : u.device.Reliable → ∀ n ≤ u.freeCount, ∃ slots t, acquireMany n u = .ok slots t
  lookup : ∀ key, u.lookup key = v.lookup key
  contains : ∀ key, u.contains key = v.contains key
  get : ∀ key, u.get key = v.get key
  list : u.list = v.list
  stat : ∀ key, u.stat key = v.stat key
  statfs : u.statfs = v.statfs
  check : ∀ order : VisitOrder,
    answer (checkVisiting order.visit false) u = answer (checkVisiting order.visit false) v

theorem statfs_withFree (v : Volume) {free : List Nat} (h : free.Perm v.allocator.free) :
    (v.withFree free).statfs = v.statfs := by
  have hcount : (v.withFree free).freeCount = v.freeCount := h.length_eq
  rw [Volume.statfs, Volume.statfs, hcount]
  rfl

/-- Memory is a function of the device but for the order of the free list. -/
theorem Shows.eq_withFree {r' : Prop} {free' : List Nat} (h : v.Shows sb r w free)
    (hu : u.Shows sb r' w free') (himage : u.device.image = v.device.image) :
    u = (v.on u.device).withFree free' := by
  obtain ⟨device, superblock, start, slots, bitmap, free''⟩ := u
  have hstart : start = v.allocator.start := by
    rw [h.mounted.start, h.superblock, ← hu.superblock]
    exact hu.mounted.start
  have hslots : slots = v.allocator.slots := by
    rw [h.mounted.slots, h.superblock, ← hu.superblock]
    exact hu.mounted.slots
  have hbitmap : bitmap = v.allocator.bitmap := by
    rw [h.bitmap_eq, ← himage]
    exact hu.bitmap_eq
  have hsuperblock : superblock = v.superblock := hu.superblock.trans h.superblock.symm
  have hfree : free'' = free' := hu.free
  rw [hstart, hslots, hbitmap, hsuperblock, hfree]
  rfl

/-- A volume whose free list is put in order answers as before. -/
theorem remounts_withFree (h : (v.withFree free).Shows sb r w free) (hr : v.device.Reliable → r)
    (hperm : free.Perm v.allocator.free) (hsorted : free.Pairwise (· < ·)) :
    (v.withFree free).Remounts v where
  device := rfl
  superblock := rfl
  bitmap := rfl
  free := hperm
  sorted := hsorted
  handed_out _ _ _ := free_of_acquireMany
  hands_out hreliable _ hn := ⟨_, h.acquireMany_eq (hr hreliable) hn⟩
  lookup _ := rfl
  contains _ := rfl
  get _ := rfl
  list := rfl
  stat _ := rfl
  statfs := statfs_withFree v hperm
  check order := (blind_checkVisiting order.visit).answer_eq v free

/-- What is attached in the place of a mounted volume stands for it. -/
theorem Shows.remounts (h : v.Shows sb r w free) (himage : d.image = v.device.image)
    (hu : attach d = .ok u) : u.Remounts (v.on d) := by
  obtain ⟨hstored, hfits⟩ := h.mounted.stored_on himage
  rw [h.superblock] at hstored hfits
  obtain ⟨hdevice, hshows⟩ := shows_of_attach hu hstored hfits
  rw [himage, h.view] at hshows
  have heq : u = (v.on d).withFree (clearSlots sb w) :=
    hdevice ▸ h.eq_withFree hshows ((congrArg Device.image hdevice).trans himage)
  have hperm : (clearSlots sb w).Perm (v.on d).allocator.free := by
    change (clearSlots sb w).Perm v.allocator.free
    rw [h.free]
    exact h.free_perm
  rw [heq] at hshows ⊢
  exact remounts_withFree hshows id hperm (sorted_clearSlots sb w)

/-- Mounting without repair attaches the device and does no more. -/
theorem mount_false_eq_ok {d' : Device} : mount false d = .ok u d' ↔ attach d = .ok u ∧ d' = d := by
  rw [mount, mountVisiting]
  cases attach d with
  | error e => simp
  | ok v => simp [eq_comm]

/-- **Memory can be had back from the device.** In every state that comes about, however many transfers
have failed on the way, the bitmap in memory is the one on the device. Mounting without repair what is on
the device succeeds if the device is reliable, and whenever it succeeds the volume stands for the one
before: the same slots are free and the lowest is handed out first, and every query and every check
without repair answers as it would have done before. -/
theorem recoverable_of_reachable {l : Layout} {P : Block → Prop} (h : Reachable l P v) :
    v.allocator.bitmap = v.superblock.bitmapOf v.device.image ∧
      ∀ d : Device, d.image = v.device.image →
        (d.Reliable → ∃ u, mount false d = .ok u d) ∧
          ∀ u d', mount false d = .ok u d' → u.Remounts (v.on d) := by
  obtain ⟨w, free, σ, hv, -⟩ := h.intact
  refine ⟨hv.mounted.bitmap, fun d himage => ⟨fun hd => ?_, fun u d' hmount => ?_⟩⟩
  · obtain ⟨hstored, hfits⟩ := hv.mounted.stored_on himage
    rcases attach_cases hstored hfits with ⟨u, hattach, -⟩ | ⟨-, hr⟩
    · exact ⟨u, mount_false_eq_ok.2 ⟨hattach, rfl⟩⟩
    · exact absurd hd hr
  · exact hv.remounts himage (mount_false_eq_ok.1 hmount).1

/-- A value is to be stored on a deduplicating volume with two slots, but after five writes the device takes no
more of them. The volume, of which a slot has leaked, is mounted again on a device that does not fail. -/
theorem recoverable_two_slots :
    ∃ v d', format ⟨2, true, by decide, by decide⟩
        (.ofImage (.blank (Layout.totalSize 2 true))) = .ok v d' ∧
      ∃ u, u = (Operation.put .zero (zeros 5) ⟨0⟩ ⟨0⟩).after
          (v.withFaults ⟨fun _ _ _ _ => false, fun _ acknowledged _ _ => acknowledged == 11⟩) ∧
        ∃ t, mount false (.ofImage u.device.image) = .ok t (.ofImage u.device.image) ∧
          t.Remounts (u.on (.ofImage u.device.image)) := by
  obtain ⟨v, hv, -⟩ := exists_format_blank ⟨2, true, by decide, by decide⟩
  have hreach : Reachable ⟨2, true, by decide, by decide⟩ (fun _ => True) v := .format hv
  obtain ⟨-, hmount⟩ := recoverable_of_reachable
    ((hreach.faults ⟨fun _ _ _ _ => false, fun _ acknowledged _ _ => acknowledged == 11⟩).run
      (.put .zero (zeros 5) ⟨0⟩ ⟨0⟩) fun _ => trivial)
  obtain ⟨hsome, hall⟩ := hmount (.ofImage _) rfl
  obtain ⟨t, ht⟩ := hsome (Device.reliable_ofImage _)
  exact ⟨v, _, hv, _, rfl, t, ht, hall t _ ht⟩

end Volume

end BlockStore
