import BlockStore.Proofs.Transfer
import BlockStore.Volume.Mount

/-!
# Running an action, write by write

An action on a volume is a sequence of block writes, and a crash leaves the image as it was after some
prefix of them. So what an action promises is said in three parts: a condition on the views that its
writes leave on the way, one on its result, and one on its failure. `Runs` is that statement, and it
composes along `bind`.

A view on the way is not observed as a bare image but as a volume that `Shows` it: memory and device
agree, so that mounting the image gives the same volume again.

## Main definitions

* `Volume.Mounted`: memory and device agree.
* `Volume.Shows`: a mounted volume, with its view and its free list named.
* `Volume.Trail`: one volume comes from another by writes that keep a condition.
* `Volume.Runs`: the statement about an action.
* `Volume.writesSince`, `Volume.cut`: the writes between two volumes, and the image after the first
  ones of them.

## Main results

* `Volume.Runs.bind`, `Runs.tryCatch`: how actions compose.
* `Volume.Trail.exists_cut`: every cut is the image of a volume on the trail.
-/

namespace BlockStore

namespace Volume

/-- Memory and device agree: the superblock is the one in block 0, the bitmap is the one on the
device, and the free list has exactly the slots whose bit is clear. -/
structure Mounted (v : Volume) : Prop where
  fits : v.superblock.Fits v.device.size
  stored : Superblock.decode (v.device.image.block 0).bytes = .ok v.superblock
  start : v.allocator.start = v.superblock.bitmapStart
  slots : v.allocator.slots = v.superblock.slots
  bitmap : v.allocator.bitmap = v.superblock.bitmapOf v.device.image
  nodup : v.allocator.free.Nodup
  mem_free : ∀ {s}, s ∈ v.allocator.free ↔
    s < v.superblock.slots ∧ (v.superblock.view v.device.image).used s = false

/-- A mounted volume with this superblock, view and free list, on a device that is reliable if `r`. -/
structure Shows (v : Volume) (sb : Superblock) (r : Prop) (w : View) (free : List Nat) : Prop where
  mounted : v.Mounted
  superblock : v.superblock = sb
  reliable : v.device.Reliable ↔ r
  view : sb.view v.device.image = w
  free : v.allocator.free = free

theorem Mounted.tick {v : Volume} (h : v.Mounted) : v.tick.Mounted :=
  ⟨h.fits, h.stored, h.start, h.slots, h.bitmap, h.nodup, h.mem_free⟩

/-- The volume after an acknowledged write of one block, with another allocator. -/
def wrote (v : Volume) (block : Nat) (b : Block) (allocator : Allocator) : Volume :=
  { v with device := v.device.wrote block b, allocator }

/-- `u` comes from `v` by transfers after whose writes `I` holds. -/
inductive Trail (I : Volume → Prop) (v : Volume) : Volume → Prop where
  /-- Nothing has happened. -/
  | refl : Trail I v v
  /-- A transfer that changed nothing. -/
  | tick {u : Volume} (h : Trail I v u) : Trail I v u.tick
  /-- An acknowledged write. -/
  | write {u : Volume} (h : Trail I v u) (block : Nat) (b : Block) (allocator : Allocator)
      (hI : I (u.wrote block b allocator)) : Trail I v (u.wrote block b allocator)

namespace Trail

variable {I J : Volume → Prop} {v u t : Volume}

theorem trans (h : Trail I v u) (h' : Trail I u t) : Trail I v t := by
  induction h' with
  | refl => exact h
  | tick _ ih => exact ih.tick
  | write _ block b a hI ih => exact ih.write block b a hI

theorem mono (hIJ : ∀ u, I u → J u) (h : Trail I v u) : Trail J v u := by
  induction h with
  | refl => exact .refl
  | tick _ ih => exact ih.tick
  | write _ block b a hI ih => exact ih.write block b a (hIJ _ hI)

theorem last (htick : ∀ u, I u → I u.tick) (hv : I v) (h : Trail I v u) : I u := by
  induction h with
  | refl => exact hv
  | tick _ ih => exact htick _ ih
  | write _ _ _ _ hI _ => exact hI

end Trail

/-! ### The images that a crash can leave -/

/-- The writes acknowledged between two states of a volume. -/
def writesSince (v u : Volume) : List Write := u.device.log.toList.drop v.device.log.size

/-- The image of `v` after the first `k` of the writes that led to `u`. -/
def cut (v u : Volume) (k : Nat) : Image :=
  Device.replay v.device.image ((v.writesSince u).take k)

@[simp] theorem writesSince_self (v : Volume) : v.writesSince v = [] :=
  List.drop_of_length_le (by simp)

theorem Trail.log_eq {I : Volume → Prop} {v u : Volume} (h : Trail I v u) :
    u.device.log.toList = v.device.log.toList ++ v.writesSince u := by
  induction h with
  | refl => simp
  | tick _ ih => exact ih
  | @write u _ block b a _ ih =>
    have hlog : (u.wrote block b a).device.log.toList = u.device.log.toList ++ [⟨block, b.bytes⟩] :=
      Array.toList_push
    have hsince : v.writesSince (u.wrote block b a) = v.writesSince u ++ [⟨block, b.bytes⟩] := by
      rw [writesSince, hlog, ih, List.append_assoc]
      exact List.drop_left
    rw [hsince, hlog, ih, List.append_assoc]

theorem Trail.writesSince_wrote {I : Volume → Prop} {v u : Volume} (h : Trail I v u) (block : Nat)
    (b : Block) (a : Allocator) :
    v.writesSince (u.wrote block b a) = v.writesSince u ++ [⟨block, b.bytes⟩] := by
  have hlog : (u.wrote block b a).device.log.toList = u.device.log.toList ++ [⟨block, b.bytes⟩] :=
    Array.toList_push
  rw [writesSince, hlog, h.log_eq, List.append_assoc]
  exact List.drop_left

/-- The image at the end of a trail is that after all writes. -/
theorem Trail.replay_writesSince {I : Volume → Prop} {v u : Volume} (h : Trail I v u) :
    Device.replay v.device.image (v.writesSince u) = u.device.image := by
  induction h with
  | refl => rw [writesSince_self]; rfl
  | tick _ ih => exact ih
  | write h block b a _ ih =>
    rw [h.writesSince_wrote, Device.replay, List.foldl_append]
    rw [Device.replay] at ih
    rw [ih]
    rfl

/-- Every cut is the image of a volume on the trail. -/
theorem Trail.exists_cut {I : Volume → Prop} {v u : Volume} (h : Trail I v u) (hv : I v) (k : Nat) :
    ∃ t, I t ∧ t.device.image = v.cut u k := by
  induction h with
  | refl =>
    refine ⟨v, hv, ?_⟩
    rw [cut, writesSince_self, List.take_nil]
    rfl
  | tick _ ih => exact ih
  | @write u h block b a hI ih =>
    by_cases hk : k ≤ (v.writesSince u).length
    · obtain ⟨t, ht, himage⟩ := ih
      refine ⟨t, ht, ?_⟩
      rw [himage, cut, cut, h.writesSince_wrote, List.take_append_of_le_length hk]
    · refine ⟨u.wrote block b a, hI, ?_⟩
      have hall := (h.write block b a hI).replay_writesSince
      rw [cut, List.take_of_length_le, hall]
      rw [h.writesSince_wrote, List.length_append, List.length_singleton]
      omega

/-! ### Running two actions in a row -/

section Bind

variable {α β : Type} {act : VolumeM α} {f : α → VolumeM β} {v u : Volume}

theorem bind_of_ok {a : α} (h : act v = .ok a u) : (act >>= f) v = f a u := by
  simp only [Bind.bind, EStateM.bind, h]

theorem bind_of_error {e : StoreError} (h : act v = .error e u) : (act >>= f) v = .error e u := by
  simp only [Bind.bind, EStateM.bind, h]

theorem of_bind_eq_ok {b : β} {t : Volume} (h : (act >>= f) v = .ok b t) :
    ∃ a u, act v = .ok a u ∧ f a u = .ok b t := by
  cases hact : act v with
  | ok a u => exact ⟨a, u, rfl, (bind_of_ok hact).symm.trans h⟩
  | error e u =>
    rw [bind_of_error hact] at h
    cases h

theorem get_bind_apply (f : Volume → VolumeM β) (v : Volume) : (get >>= f) v = f v v := rfl

end Bind

/-! ### What an action promises -/

section Runs

variable (sb : Superblock) (r : Prop)

/-- The volume shows a view with property `C`. -/
def Passes (C : View → Prop) (v : Volume) : Prop := ∃ w free, v.Shows sb r w free ∧ C w

variable {sb r} {C D : View → Prop} {v u : Volume} {w : View} {free : List Nat}

theorem Shows.tick (h : v.Shows sb r w free) : v.tick.Shows sb r w free :=
  ⟨h.mounted.tick, h.superblock, Device.reliable_tick.trans h.reliable, h.view, h.free⟩

theorem Shows.passes (h : v.Shows sb r w free) (hC : C w) : Passes sb r C v := ⟨w, free, h, hC⟩

theorem Passes.tick (h : Passes sb r C v) : Passes sb r C v.tick := by
  obtain ⟨w, free, hs, hC⟩ := h
  exact ⟨w, free, hs.tick, hC⟩

theorem Passes.mono (hCD : ∀ w, C w → D w) (h : Passes sb r C v) : Passes sb r D v := by
  obtain ⟨w, free, hs, hC⟩ := h
  exact ⟨w, free, hs, hCD w hC⟩

/-- What holds on the way also holds at the end. -/
theorem Trail.passes (h : Trail (Passes sb r C) v u) (hv : Passes sb r C v) : Passes sb r C u :=
  h.last (fun _ => Passes.tick) hv

variable (sb r) in
/-- From `v` on, the views that the writes of `act` leave have property `C`; if it succeeds its
result satisfies `Q`, and if it fails its error satisfies `E`. -/
def Runs {α : Type} (C : View → Prop) (act : VolumeM α) (v : Volume) (Q : α → Volume → Prop)
    (E : StoreError → Volume → Prop) : Prop :=
  match act v with
  | .ok a u => Trail (Passes sb r C) v u ∧ Q a u
  | .error e u => Trail (Passes sb r C) v u ∧ E e u

namespace Runs

variable {α β : Type} {act : VolumeM α} {Q Q' : α → Volume → Prop} {E E' : StoreError → Volume → Prop}

theorem pure {a : α} (hQ : Q a v) : Runs sb r C (pure a) v Q E := ⟨.refl, hQ⟩

theorem throw {e : StoreError} (hE : E e v) : Runs sb r C (throw e : VolumeM α) v Q E := ⟨.refl, hE⟩

theorem bind {f : α → VolumeM β} {R : β → Volume → Prop} (hact : Runs sb r C act v Q E)
    (hf : ∀ a u, Q a u → Runs sb r C (f a) u R E) : Runs sb r C (act >>= f) v R E := by
  unfold Runs at hact ⊢
  cases hrun : act v with
  | error e u =>
    rw [hrun] at hact
    simpa [Bind.bind, EStateM.bind, hrun] using hact
  | ok a u =>
    rw [hrun] at hact
    have hrest := hf a u hact.2
    unfold Runs at hrest
    simp only [Bind.bind, EStateM.bind, hrun]
    cases hrun' : f a u with
    | ok b t => rw [hrun'] at hrest; exact ⟨hact.1.trans hrest.1, hrest.2⟩
    | error e t => rw [hrun'] at hrest; exact ⟨hact.1.trans hrest.1, hrest.2⟩

theorem mono (h : Runs sb r C act v Q E) (hQ : ∀ a u, Q a u → Q' a u)
    (hE : ∀ e u, E e u → E' e u) : Runs sb r C act v Q' E' := by
  unfold Runs at h ⊢
  cases hrun : act v with
  | ok a u => rw [hrun] at h; exact ⟨h.1, hQ a u h.2⟩
  | error e u => rw [hrun] at h; exact ⟨h.1, hE e u h.2⟩

theorem weaken (h : Runs sb r C act v Q E) (hCD : ∀ w, C w → D w) : Runs sb r D act v Q E := by
  unfold Runs at h ⊢
  cases hrun : act v with
  | ok a u => rw [hrun] at h; exact ⟨h.1.mono fun u => Passes.mono hCD, h.2⟩
  | error e u => rw [hrun] at h; exact ⟨h.1.mono fun u => Passes.mono hCD, h.2⟩

theorem tryCatch_apply (handler : StoreError → VolumeM α) :
    (tryCatch act handler : VolumeM α) v =
      match act v with
      | .ok a u => .ok a u
      | .error e u => handler e u := by
  change EStateM.tryCatch act handler v = _
  unfold EStateM.tryCatch
  cases act v <;> rfl

theorem tryCatch {handler : StoreError → VolumeM α} (hact : Runs sb r C act v Q E')
    (hh : ∀ e u, E' e u → Runs sb r C (handler e) u Q E) :
    Runs sb r C (MonadExcept.tryCatch act handler) v Q E := by
  unfold Runs at hact ⊢
  rw [tryCatch_apply]
  cases hrun : act v with
  | ok a u =>
    rw [hrun] at hact
    exact hact
  | error e u =>
    rw [hrun] at hact
    have hrest := hh e u hact.2
    unfold Runs at hrest
    dsimp only
    cases hrun' : handler e u with
    | ok b t => rw [hrun'] at hrest; exact ⟨hact.1.trans hrest.1, hrest.2⟩
    | error e t => rw [hrun'] at hrest; exact ⟨hact.1.trans hrest.1, hrest.2⟩

theorem get_bind {f : Volume → VolumeM β} {R : β → Volume → Prop} (h : Runs sb r C (f v) v R E) :
    Runs sb r C (get >>= f) v R E := h

/-- The two outcomes of an action. -/
theorem result (h : Runs sb r C act v Q E) :
    (∃ a u, act v = .ok a u ∧ Trail (Passes sb r C) v u ∧ Q a u) ∨
      ∃ e u, act v = .error e u ∧ Trail (Passes sb r C) v u ∧ E e u := by
  unfold Runs at h
  cases hrun : act v with
  | ok a u => rw [hrun] at h; exact .inl ⟨a, u, rfl, h⟩
  | error e u => rw [hrun] at h; exact .inr ⟨e, u, rfl, h⟩

/-- An action that fails on no reliable device leads to a volume with the view it promises. -/
theorem exists_shows {x : View} (h : Runs sb True (fun _ => True) act v
    (fun _ u => u.Shows sb True x free) (fun _ u => u.Shows sb True w free ∧ ¬ True)) :
    ∃ u, Shows u sb True x free := by
  rcases h.result with ⟨_, u, -, -, hu⟩ | ⟨_, _, -, -, -, hno⟩
  · exact ⟨u, hu⟩
  · exact absurd trivial hno

theorem of_ok {a : α} (h : Runs sb r C act v Q E) (hrun : act v = .ok a u) : Q a u := by
  unfold Runs at h
  rw [hrun] at h
  exact h.2

theorem of_error {e : StoreError} (h : Runs sb r C act v Q E) (hrun : act v = .error e u) : E e u := by
  unfold Runs at h
  rw [hrun] at h
  exact h.2

/-- Two promises about the same run. -/
theorem and (h : Runs sb r C act v Q E) (h' : Runs sb r D act v Q' E') :
    Runs sb r C act v (fun a u => Q a u ∧ Q' a u) (fun e u => E e u ∧ E' e u) := by
  unfold Runs at h h' ⊢
  cases hrun : act v with
  | ok a u => rw [hrun] at h h'; exact ⟨h.1, h.2, h'.2⟩
  | error e u => rw [hrun] at h h'; exact ⟨h.1, h.2, h'.2⟩

theorem passes (hv : Passes sb r C v) (h : Runs sb r C act v Q E) :
    Runs sb r C act v (fun a u => Q a u ∧ Passes sb r C u) (fun e u => E e u ∧ Passes sb r C u) := by
  unfold Runs at h ⊢
  cases hrun : act v with
  | ok a u => rw [hrun] at h; exact ⟨h.1, h.2, h.1.passes hv⟩
  | error e u => rw [hrun] at h; exact ⟨h.1, h.2, h.1.passes hv⟩

theorem look {f : Volume → Except StoreError α} (hok : ∀ a, f v = .ok a → Q a v.tick)
    (herror : ∀ e, f v = .error e → E e v.tick) : Runs sb r C (look f) v Q E := by
  unfold Runs Volume.look
  cases hf : f v with
  | ok a => exact ⟨.tick .refl, hok a hf⟩
  | error e => exact ⟨.tick .refl, herror e hf⟩

/-- A query with one answer, which it gives unless the device is not reliable. -/
theorem look_eq {f : Volume → Except StoreError α} {a : α}
    (hf : f v = .ok a ∨ (∃ e, f v = .error (.device e)) ∧ ¬ r) :
    Runs sb r C (Volume.look f) v (fun a' u => a' = a ∧ u = v.tick) (fun _ u => u = v.tick ∧ ¬ r) := by
  rcases hf with hok | ⟨⟨e, herror⟩, hr⟩
  · refine .look (fun a' ha' => ⟨?_, rfl⟩) ?_
    · rw [hok] at ha'
      exact (Except.ok.inj ha').symm
    · intro e he
      rw [hok] at he
      cases he
  · refine .look (fun a' ha' => ?_) fun _ _ => ⟨rfl, hr⟩
    rw [herror] at ha'
    cases ha'

end Runs

end Runs

end Volume

end BlockStore
