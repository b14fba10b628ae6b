import BlockStore.Proofs.Bitmap
import BlockStore.Volume.Update

/-!
# Calls that undo themselves

An allocator changes its bitmap and its free list in memory before it writes, and changes them back if the
write fails. Seen from outside a call changes allocator and device together, or it fails and has changed at
most the device. Here the calls are brought into that form, and everything else is proved about it.

## Main definitions

* `Allocator.atomic`: an action that changes the allocator only if it succeeds.
* `Allocator.assign`: one bit, on the device and in the allocator that is returned.
* `Allocator.take`, `Allocator.giveBack`, `Allocator.mark`: the calls in this form.
* `Volume.changeAllocator`: such an action on the allocator of a volume.

## Main results

* `Allocator.setBit_eq`: a byte that could not be written is put back.
* `Allocator.acquire_eq`, `release_eq`, `markUsed_eq`: the calls are what they look like.
* `Volume.acquire_eq`, `release_eq`, `markUsed_eq`: the same for those of a volume.
-/

namespace BlockStore

variable {α : Type}

namespace Allocator

/-- An action that returns the new allocator, as one that changes the allocator. If it fails, the allocator
is as before. -/
def atomic (act : Allocator → DeviceM (α × Allocator)) : AllocatorM α := fun (a, d) =>
  match act a d with
  | .ok (x, a) d => .ok x (a, d)
  | .error e d => .error e (a, d)

/-- Sets or clears the bit of a slot on the device, and returns the allocator in which it is set or
cleared. -/
def assign (a : Allocator) (slot : Nat) (used : Bool) : DeviceM Allocator :=
  if slot < a.slots then do
    let bitmap := assignSlot a.bitmap slot used
    let k := slot / 8 / blockSize
    Device.write (a.start + k) (bitmap.extract (k * blockSize) ((k + 1) * blockSize))
    return { a with bitmap }
  else throw (.slotState slot .withinVolume)

/-- The next free slot is taken. -/
def take (a : Allocator) : DeviceM (Nat × Allocator) :=
  match a.free with
  | [] => throw .noSpace
  | slot :: free => do
    let a ← a.assign slot true
    return (slot, { a with free })

/-- A slot is given back. -/
def giveBack (slot : Nat) (a : Allocator) : DeviceM (Unit × Allocator) := do
  let a ← a.assign slot false
  return ((), { a with free := slot :: a.free })

/-- A slot is marked used. -/
def mark (slot : Nat) (a : Allocator) : DeviceM (Unit × Allocator) := do
  let a ← a.assign slot true
  return ((), { a with free := a.free.filter (· ≠ slot) })

/-! ### Actions, run -/

theorem get_bind_apply (f : Allocator × Device → AllocatorM α) (s : Allocator × Device) :
    (get >>= f) s = f s s := rfl

theorem change_bind_apply (f : Allocator → Allocator) (act : Unit → AllocatorM α) (a : Allocator)
    (d : Device) : (change f >>= act) (a, d) = act () (f a, d) := rfl

theorem tryCatch_apply (act : AllocatorM α) (handler : StoreError → AllocatorM α) (s : Allocator × Device) :
    (tryCatch act handler : AllocatorM α) s =
      match act s with
      | .ok x s => .ok x s
      | .error e s => handler e s := by
  change EStateM.tryCatch act handler s = _
  unfold EStateM.tryCatch
  cases act s <;> rfl

/-- A change in memory after an action that succeeded is part of the action. -/
theorem atomic_bind_change (act : Allocator → DeviceM (Unit × Allocator)) (f : Allocator → Allocator) :
    (atomic act >>= fun _ => change f) = atomic fun a => do
      let (_, a) ← act a
      return ((), f a) := by
  funext ⟨a, d⟩
  simp only [atomic, bind, EStateM.bind]
  cases act a d <;> rfl

/-! ### The calls -/

/-- The bits and the free list have nothing to do with each other. -/
theorem assign_of_free (a : Allocator) (free : List Nat) (slot : Nat) (used : Bool) (d : Device) :
    ({ a with free } : Allocator).assign slot used d =
      match a.assign slot used d with
      | .ok b d => .ok { b with free } d
      | .error e d => .error e d := by
  simp only [assign]
  split
  · simp only [bind, EStateM.bind]
    cases Device.write _ _ d <;> rfl
  · rfl

/-- **A byte that could not be written is put back.** -/
theorem setBit_eq (slot : Nat) (used : Bool) :
    setBit slot used = atomic fun a => do return ((), ← a.assign slot used) := by
  funext ⟨a, d⟩
  simp only [setBit, atomic, assign, get_bind_apply]
  by_cases hslot : slot < a.slots
  · simp only [hslot, if_true, change_bind_apply, tryCatch_apply, writeBitmap]
    simp only [bind, EStateM.bind]
    cases Device.write (a.start + slot / 8 / blockSize) ((assignSlot a.bitmap slot used).extract
      (slot / 8 / blockSize * blockSize) ((slot / 8 / blockSize + 1) * blockSize)) d with
    | ok _ d => rfl
    | error e d =>
      have hback : (assignSlot a.bitmap slot used).set! (slot / 8) (byteAt a.bitmap (slot / 8)) =
          a.bitmap := set_set_byteAt ..
      exact congrArg (fun bitmap => EStateM.Result.error e ({ a with bitmap }, d)) hback
  · simp only [hslot, if_false]
    rfl

/-- **A slot that could not be marked is put back.** -/
theorem acquire_eq : acquire = atomic take := by
  funext ⟨a, d⟩
  simp only [acquire, atomic, take, get_bind_apply]
  cases hfree : a.free with
  | nil => rfl
  | cons slot free =>
    simp only [change_bind_apply]
    simp only [bind, EStateM.bind, tryCatch_apply, setBit_eq, atomic, assign_of_free]
    cases a.assign slot true d with
    | ok b d => rfl
    | error e d => exact congrArg (fun free => EStateM.Result.error e ({ a with free }, d)) hfree.symm

theorem release_eq (slot : Nat) : release slot = atomic (giveBack slot) := by
  rw [release, setBit_eq, atomic_bind_change]
  simp only [bind_assoc, pure_bind]
  rfl

theorem markUsed_eq (slot : Nat) : markUsed slot = atomic (mark slot) := by
  rw [markUsed, setBit_eq, atomic_bind_change]
  simp only [bind_assoc, pure_bind]
  rfl

end Allocator

namespace Volume

/-- A change of the allocator; if it fails, the allocator is as before. -/
def changeAllocator (act : Allocator → DeviceM (α × Allocator)) : VolumeM α :=
  onAllocator (Allocator.atomic act)

theorem acquire_eq : acquire = changeAllocator Allocator.take := congrArg onAllocator Allocator.acquire_eq

theorem release_eq (slot : Nat) : release slot = changeAllocator (Allocator.giveBack slot) :=
  congrArg onAllocator (Allocator.release_eq slot)

theorem markUsed_eq (slot : Nat) : markUsed slot = changeAllocator (Allocator.mark slot) :=
  congrArg onAllocator (Allocator.markUsed_eq slot)

/-- A change of the allocator, run. -/
theorem changeAllocator_apply (act : Allocator → DeviceM (α × Allocator)) (v : Volume) :
    changeAllocator act v = match act v.allocator v.device with
      | .ok (x, allocator) device => .ok x { v with device, allocator }
      | .error e device => .error e { v with device } := by
  obtain ⟨device, sb, allocator⟩ := v
  simp only [changeAllocator, onAllocator, Allocator.atomic]
  cases act allocator device <;> rfl

end Volume

end BlockStore
