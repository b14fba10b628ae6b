import BlockStore.Proofs.Consistency
import BlockStore.Proofs.Custody
import BlockStore.Proofs.Reachable

/-!
# Volumes without faults

As long as no transfer fails, nothing is left behind. Every slot that an operation takes has an owner
when it ends, whether it succeeds or not, and every reference that it has taken has a pointer. So the
slots in use are those with a key and those whose block is shared, a reference count is the number of
pointers, and a check finds nothing.

Two things are known of a run: what `View.Sound` says of it, which is where the counts come from, and
what `View.Owned` says of it, which is that no slot has become loose. A volume is exact if its counts
are and it has no loose slots, and that is kept.

## Main definitions

* `View.Exact`: the counts are exact, and no slot is loose.
* `View.HasOwner`: the slot has a key, or its block is shared.
* `Volume.StaysExact`: an action that leaves an exact volume.
* `Volume.Faultless`: the states that come about without faults.
* `Volume.Lossless`: the invariant in terms of bits, entries and checks.

## Main results

* `View.Exact.tidy`: there is nothing to be found in an exact view.
* `Volume.exact_operation`, `exact_mount`: what keeps a volume exact.
* `Volume.lossless_of_faultless`: the states that come about without faults.
-/

namespace BlockStore

namespace View

/-- The counts are exact, and every slot in use has an owner. -/
structure Exact (sb : Superblock) (w : View) : Prop where
  sound : w.Sound sb (fun _ => True) fun _ => 0
  tight : ∀ s, ¬ w.Loose sb s

/-- The slot has a key, or its block is shared. -/
def HasOwner (w : View) (sb : Superblock) (s : Nat) : Prop :=
  w.Active s ∨ ∃ i, w.Held i ∧ (w.shared i).block = sb.dataBlock s

variable {sb : Superblock} {length : Nat} {w w' : View} {s i : Nat}

theorem exact_blank (sb : Superblock) : blank.Exact sb :=
  ⟨sound_blank _ _ _, fun s hs => by cases hs.used⟩

namespace Exact

theorem lt_of_hasOwner (h : w.Exact sb) (hs : w.HasOwner sb s) : s < sb.slots := by
  rcases hs with hactive | ⟨i, hi, hblock⟩
  · exact h.sound.active_lt hactive
  · obtain ⟨t, ht, hhome, -⟩ := h.sound.home hi
    rwa [Superblock.dataBlock_inj (hblock.symm.trans hhome)]

theorem used_iff (h : w.Exact sb) (hs : s < sb.slots) : w.used s ↔ w.HasOwner sb s := by
  constructor
  · intro hused
    refine Classical.byContradiction fun hno => h.tight s ⟨hs, hused, fun hactive => ?_, ?_⟩
    · exact hno (.inl hactive)
    · exact fun {i} hi hblock => hno (.inr ⟨i, hi, hblock⟩)
  · rintro (hactive | ⟨i, hi, hblock⟩)
    · exact h.sound.used_of_active hactive
    · exact (h.sound.owner hi hblock).1

/-- There is nothing to be found in an exact view. -/
theorem tidy (hfits : sb.Fits length) (h : w.Exact sb) : w.Tidy sb where
  valid := h.sound.valid
  first := h.sound.first
  rejected := h.sound.shareable.rejected_eq_nil
  dangling := h.sound.dangling_eq_nil
  counted b hb := by
    have hclaims := claims_of_mem hb
    have hcount := (h.sound.counted hclaims.held).2
    rw [hclaims.block_eq, hclaims.recorded_eq] at hcount
    rw [(h.sound.actual_eq_refs hfits hb).1]
    exact hcount
  used_iff s hs := by
    refine ⟨fun hused => ?_, h.sound.used_of_referenced hfits⟩
    rcases (h.used_iff hs).1 hused with hactive | ⟨i, hi, hblock⟩
    · exact List.mem_append_left _ (h.sound.mem_logical.2 hactive)
    · -- The entry counts at least one reference, so a pointer to the block is there.
      obtain ⟨b, hb, rfl⟩ := h.sound.shareable.exists_accepted (h.sound.held_lt hi) hi
      have hclaims := claims_of_mem hb
      obtain ⟨hrefs, -, -⟩ := h.sound.actual_eq_refs hfits hb
      have hcount := h.sound.counted hclaims.held
      rw [hclaims.block_eq] at hcount
      have hne : w.actual sb b.block ≠ 0 := by omega
      refine List.mem_append_right _ ((mem_kept hfits).2 ⟨b, hb, ?_, ?_⟩)
      · exact Superblock.dataBlock_inj
          (hclaims.block_of.symm.trans (hclaims.block_eq.symm.trans hblock))
      · exact (actual_ne_zero_iff hfits hb).1 hne

end Exact

end View

namespace Volume

variable {sb : Superblock} {v u : Volume} {w w' : View} {free free' : List Nat}

/-- A sound view without surplus, in which no slot has become loose, is exact as the one before. -/
theorem Tightened.passes_exact {τ : Nat → Nat} (ht : u.Tightened sb True w) (hw : w.Exact sb)
    (hu : u.Shows sb True w' free') (hsound : w'.Sound sb (fun _ => True) τ) (hτ : ∀ x, τ x ≤ 0) :
    Passes sb True (View.Exact sb) u := by
  obtain ⟨w'', free'', hu', htight⟩ := ht
  obtain rfl : w'' = w' := hu'.view.symm.trans hu.view
  obtain rfl : τ = fun _ => 0 := funext fun x => Nat.le_zero.1 (hτ x)
  exact hu.passes ⟨hsound, fun s hs => hw.tight s (htight s hs)⟩

/-- The action leaves an exact volume on a reliable device, whether it succeeds or not. -/
def StaysExact {α : Type} (sb : Superblock) (act : VolumeM α) (v : Volume) : Prop :=
  Runs sb True (fun _ => True) act v (fun _ => Passes sb True (View.Exact sb))
    fun _ => Passes sb True (View.Exact sb)

section Operations

variable (h : v.Shows sb True w free) (hw : w.Exact sb)

include h hw

theorem exact_create (key : Key) (now : Timestamp) : StaysExact sb (create key now) v := by
  refine ((runs_create h hw.sound key now).weaken fun _ _ => trivial).mono ?_ ?_
  · rintro s u ⟨hnew, rest, hfree, hu⟩
    obtain ⟨hs, hclear⟩ := h.mem_free.1 (hfree ▸ List.mem_cons_self)
    exact hu.passes ⟨hw.sound.created h.fits hs hclear hnew now,
      fun t ht => hw.tight t (tightens_created w s key now t ht)⟩
  · exact fun _ _ he => (he.2 trivial).1.passes hw

theorem exact_put (key : Key) (data : ByteArray) (created stored : Timestamp) :
    StaysExact sb (put key data created stored) v := by
  have howned : w.Owned sb False := hw.sound.owned
  have hboth := (runs_put h hw.sound key data (fun _ => trivial) created stored).and
    (owned_put h howned key data created stored)
  refine (hboth.weaken fun _ _ => trivial).mono ?_ ?_
  · rintro s u ⟨⟨-, -, w', free', τ, b', hu, hw', hτ, -⟩, w'', free'', hu', -, htight, -⟩
    exact Tightened.passes_exact ⟨w'', free'', hu', htight⟩ hw hu hw' hτ
  · exact fun _ _ he => (he.1 trivial).1.passes hw

theorem exact_remove (key : Key) : StaysExact sb (remove key) v := by
  have howned : w.Owned sb False := hw.sound.owned
  have hboth := (runs_remove h hw.sound key).and (owned_remove h howned key)
  refine (hboth.weaken fun _ _ => trivial).mono ?_ ?_
  · rintro _ u ⟨⟨-, w', free', hu, hw', -⟩, htight⟩
    exact htight.passes_exact hw hu hw' fun _ => Nat.le_refl 0
  · exact fun _ _ he => (he.1 trivial).1.passes hw

theorem exact_rename (old new : Key) : StaysExact sb (rename old new) v := by
  have howned : w.Owned sb False := hw.sound.owned
  have hboth := (runs_rename h hw.sound old new).and (owned_rename h howned old new)
  refine (hboth.weaken fun _ _ => trivial).mono ?_ ?_
  · rintro _ u ⟨⟨-, -, w', hu, hw', -⟩, htight⟩
    exact htight.passes_exact hw hu hw' fun _ => Nat.le_refl 0
  · exact fun _ _ he => (he.1 trivial).1.passes hw

theorem exact_check (order : VisitOrder) (repair : Bool) :
    StaysExact sb (checkVisiting order.visit repair) v := by
  obtain ⟨report, u, free', hrun, -, -, hu⟩ :=
    h.check_of_tidy trivial (hw.tidy h.fits) order.perm repair
  have hall := performs_check order.perm repair _ v free h (View.along_true _ _)
  unfold StaysExact Runs
  unfold Runs at hall
  rw [hrun] at hall ⊢
  exact ⟨hall.1, hu.passes hw⟩

/-- Without faults an operation keeps a volume exact, whether it succeeds or not. -/
theorem exact_operation (o : Operation) : Passes sb True (View.Exact sb) (o.after v) := by
  have hrun : StaysExact sb o.run v := by
    cases o with
    | create key now => exact Runs.bind (exact_create h hw key now) fun _ _ hu => .pure hu
    | put key data created stored =>
      exact Runs.bind (exact_put h hw key data created stored) fun _ _ hu => .pure hu
    | remove key => exact exact_remove h hw key
    | rename old new => exact exact_rename h hw old new
    | check order repair => exact Runs.bind (exact_check h hw order repair) fun _ _ hu => .pure hu
    | query f => exact .look (fun _ _ => h.tick.passes hw) fun _ _ => h.tick.passes hw
  rw [Operation.after]
  rcases Runs.result hrun with ⟨_, u, hok, -, hu⟩ | ⟨_, u, herror, -, hu⟩
  · rw [hok]
    exact hu
  · rw [herror]
    exact hu

/-- Mounting the device of an exact volume again, with or without repair, shows the same view. -/
theorem exact_mount {d' : Device} {order : VisitOrder} {repair : Bool}
    (hu : mountVisiting order.visit repair v.device = .ok u d') :
    Passes sb True (View.Exact sb) u := by
  obtain ⟨hstored, hfits⟩ := h.mounted.stored_on (d := v.device) rfl
  rw [h.superblock] at hstored hfits
  obtain ⟨free', hshows⟩ := shows_of_mountVisiting_tidy hu hstored hfits order.perm
    (h.view.symm ▸ hw.tidy h.fits)
  rw [h.view] at hshows
  exact ⟨w, free', ⟨hshows.mounted, hshows.superblock, hshows.reliable.trans h.reliable, hshows.view,
    hshows.free⟩, hw⟩

end Operations

/-! ### The states that come about without faults -/

/-- The states that a volume of this layout can come to be in if no transfer ever fails. -/
inductive Faultless (l : Layout) : Volume → Prop where
  /-- It has been formatted. -/
  | format {d d' : Device} {v : Volume} (hd : d.Reliable) (h : format l d = .ok v d') : Faultless l v
  /-- An operation has run, and has succeeded or failed. -/
  | run {v : Volume} (h : Faultless l v) (o : Operation) : Faultless l (o.after v)
  /-- Its device has been mounted again, with or without repair. -/
  | mount {v u : Volume} {d' : Device} (h : Faultless l v) (order : VisitOrder) (repair : Bool)
      (hu : mountVisiting order.visit repair v.device = .ok u d') : Faultless l u

theorem Faultless.exact {l : Layout} (h : Faultless l v) :
    Passes l.superblock True (View.Exact l.superblock) v := by
  induction h with
  | format hd h => exact ⟨.blank, _, shows_of_format_reliable hd h, View.exact_blank _⟩
  | run _ o ih =>
    obtain ⟨w, free, hv, hw⟩ := ih
    exact exact_operation hv hw o
  | mount _ order repair hu ih =>
    obtain ⟨w, free, hv, hw⟩ := ih
    exact exact_mount hv hw hu

/-- Every slot in use has an owner, every reference is counted, and there is nothing to be found. -/
structure Lossless (v : Volume) : Prop where
  /-- The bits in memory are those of the slots with an owner. -/
  isUsed_iff : ∀ s, v.allocator.isUsed s ↔ v.view.HasOwner v.superblock s
  /-- So are the bits on the device. -/
  bit_iff : ∀ s < v.superblock.slots,
    testSlot (v.superblock.bitmapOf v.device.image) s ↔ v.view.HasOwner v.superblock s
  /-- The other slots are free. -/
  mem_free : ∀ s, s ∈ v.allocator.free ↔ s < v.superblock.slots ∧ ¬ v.view.HasOwner v.superblock s
  /-- A shared block is the block of a slot without a key. -/
  home : ∀ i, v.view.Held i →
    ∃ s < v.superblock.slots, (v.view.shared i).block = v.superblock.dataBlock s ∧ ¬ v.view.Active s
  /-- A dedup entry counts the keys whose pointer leads to its block, and there is at least one. -/
  counted : ∀ i, v.view.Held i → 1 ≤ (v.view.shared i).refCount.toNat ∧
    (v.view.shared i).refCount.toNat = v.view.refs v.superblock (v.view.shared i).block
  clean : v.ChecksClean
  /-- The device can be mounted again. -/
  mounts : ∀ (order : VisitOrder) (repair : Bool),
    ∃ u d', mountVisiting order.visit repair v.device = .ok u d'

theorem Shows.lossless (h : v.Shows sb True w free) (hw : w.Exact sb) : v.Lossless := by
  obtain rfl := h.superblock
  obtain rfl := h.view
  refine ⟨fun s => ?_, fun s hs => ?_, fun s => ?_, fun i hi => ?_, fun i hi => ?_,
    h.checksClean trivial (hw.tidy h.fits), fun order repair => ?_⟩
  · rw [h.isUsed_eq]
    by_cases hs : s < v.superblock.slots
    · exact hw.used_iff hs
    · refine ⟨fun hused => ?_, fun howner => absurd (hw.lt_of_hasOwner howner) hs⟩
      simp [Superblock.view, hs] at hused
  · rw [h.testSlot_eq hs]
    exact hw.used_iff hs
  · rw [h.free, h.mem_free]
    refine and_congr_right fun hs => ?_
    rw [← Bool.not_eq_true]
    exact not_congr (hw.used_iff hs)
  · obtain ⟨s, hs, hblock, -, hidle, -⟩ := hw.sound.home hi
    exact ⟨s, hs, hblock, hidle⟩
  · obtain ⟨hpos, hcount⟩ := hw.sound.counted hi
    exact ⟨hpos, hcount.symm⟩
  · obtain ⟨hstored, hfits⟩ := h.mounted.stored_on (d := v.device) rfl
    exact exists_mountVisiting (h.reliable.2 trivial) hstored hfits order.perm repair

/-- **Nothing is lost without faults.** In every state that comes about without faults, the slots in use
are those with a key and those whose block is shared, every reference count is the number of keys that
point at the block, and every check finds nothing. -/
theorem lossless_of_faultless {l : Layout} (h : Faultless l v) : v.Lossless := by
  obtain ⟨w, free, hv, hw⟩ := h.exact
  exact hv.lossless hw

/-- A value is stored on a deduplicating volume with two slots, and its key deleted after the volume was
mounted again. -/
theorem lossless_two_slots :
    ∃ v d' u d'', format ⟨2, true, by decide, by decide⟩
        (.ofImage (.blank (Layout.totalSize 2 true))) = .ok v d' ∧
      mountVisiting List.reverse true
        ((Operation.put .zero (zeros 5) ⟨0⟩ ⟨0⟩).after v).device = .ok u d'' ∧
      ((Operation.remove .zero).after u).Lossless := by
  have hd := Device.reliable_ofImage (.blank (Layout.totalSize 2 true))
  rcases format_cases ⟨2, true, by decide, by decide⟩ (.ofImage (.blank (Layout.totalSize 2 true))) with
    ⟨v, hv, -⟩ | ⟨-, hfail⟩
  · have hput := (Faultless.format hd hv).run (.put .zero (zeros 5) ⟨0⟩ ⟨0⟩)
    obtain ⟨w, free, hshows, hw⟩ := hput.exact
    obtain ⟨u, d'', hu⟩ := (hshows.lossless hw).mounts ⟨List.reverse, List.reverse_perm⟩ true
    exact ⟨v, _, u, d'', hv, hu, lossless_of_faultless
      ((hput.mount ⟨List.reverse, List.reverse_perm⟩ true hu).run (.remove .zero))⟩
  · exact absurd ⟨hd, Nat.le_refl _⟩ hfail

end Volume

end BlockStore
