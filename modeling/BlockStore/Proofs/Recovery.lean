import BlockStore.Proofs.Consistency
import BlockStore.Proofs.Queries
import BlockStore.Proofs.Reachable

/-!
# Recovery from a crash

The power may go after any write of any operation, in any state that a volume can come to be in.
Mounting what is then on the device with repair succeeds and leaves a consistent volume. It stores a map
that the operation can leave: the one before the operation or the one after it, and the value of a new
key may still be missing. So no key changes that the operation does not name.

## Main results

* `Volume.mount_sound`: mounting a sound image with repair.
* `Volume.recovers_after_crash`: mounting what a crash has left.
-/

namespace BlockStore

/-- Without collisions of content keys, only the block itself stands for a block. -/
theorem Operation.Leaves.exact {sb : Superblock} {P : Block → Prop} {o : Operation} {M M' : KeyMap}
    (h : o.Leaves (sb.Alike P) M M') (hP : sb.isDedup → Volume.Distinct P) (ho : o.Stores P) :
    o.Leaves Eq M M' := by
  cases o with
  | put key data created stored =>
    rw [Operation.Leaves] at h ⊢
    split at h
    · rename_i hsize
      rw [if_pos hsize]
      refine h.imp_right ?_
      rintro ⟨b, halike, rfl⟩
      exact ⟨b, (Volume.eq_of_alike hP (ho hsize) halike).symm, rfl⟩
    · rename_i hsize
      rw [if_neg hsize]
      exact h
  | _ => exact h

namespace Volume

variable {sb : Superblock} {v : Volume} {P : Block → Prop} {σ : Nat → Nat} {d : Device}

/-- A sound image can be mounted with repair. The volume is then consistent, and its map is the one that
the image stores. -/
theorem mount_sound (hd : d.Reliable) (hstored : Superblock.decode (d.image.block 0).bytes = .ok sb)
    (hfits : sb.Fits d.size) (hw : (sb.view d.image).Sound sb P σ) (order : VisitOrder) :
    ∃ u d', mountVisiting order.visit true d = .ok u d' ∧ u.ChecksClean ∧
      u.Reads ((sb.view d.image).contents sb) := by
  have hwithin := View.within_view sb d.image
  have hplan := hw.along_repairs hfits hwithin order.perm
  obtain ⟨τ, hrepaired, hcontents⟩ := hplan.last ⟨σ, hw, rfl⟩
  rcases attach_cases hstored hfits with ⟨v, hattach, rfl, hv⟩ | ⟨-, hr⟩
  · obtain ⟨u, free', hrun, -, hu⟩ := hv.check_eq hd order.perm true hplan
    refine ⟨u, u.device, mountVisiting_of_check hattach hrun,
      hu.checksClean hd (hwithin.tidy_repaired hfits order.perm), ?_⟩
    rw [← hcontents]
    exact hu.reads hd hrepaired
  · exact absurd hd hr

/-- **A crash is recovered from.** In every state that comes about a volume stores a map `M`. If the power
goes after `k` writes of an operation, then mounting with repair what is on the device succeeds, and every
check finds nothing. The map `M'` that is stored then is one that the operation can leave of `M`, and it
has the same value as `M` for every key that the operation does not name. If the volume deduplicates, that
is under the assumption that no two of the blocks to be stored have the same content key. -/
theorem recovers_after_crash {l : Layout} (h : Reachable l P v) (hP : l.dedup → Distinct P) (o : Operation)
    (ho : o.Stores P) :
    ∃ M, (v.device.Reliable → v.Reads M) ∧
      ∀ (k : Nat) (d : Device) (order : VisitOrder), d.Reliable → d.image = v.cut (o.after v) k →
        ∃ M' u d', mountVisiting order.visit true d = .ok u d' ∧ u.ChecksClean ∧ u.Reads M' ∧
          o.Leaves Eq M M' ∧ ∀ key ∉ o.names, M' key = M key := by
  obtain ⟨w, free, σ, hv, hw⟩ := h.intact
  refine ⟨w.contents l.superblock, fun hr => hv.reads hr hw, fun k d order hd himage => ?_⟩
  obtain ⟨hstored, hfits, τ, hsound, hleaves⟩ := sound_cut hv hw ho himage
  obtain ⟨u, d', hmount, hclean, hreads⟩ := mount_sound hd hstored hfits hsound order
  exact ⟨_, u, d', hmount, hclean, hreads, hleaves.exact (l.isDedup_superblock ▸ hP) ho,
    fun key hkey => hleaves.of_not_mem hkey⟩

/-- The power goes after three writes while a value is stored on a deduplicating volume with two slots. -/
theorem recovers_two_slots :
    ∃ v d' M, format ⟨2, true, by decide, by decide⟩ (.ofImage (.blank (Layout.totalSize 2 true))) = .ok v d' ∧
      v.Reads M ∧
      ∃ M' u d'', mountVisiting List.reverse true (.ofImage (v.cut
          ((Operation.put .zero (zeros 5) ⟨0⟩ ⟨0⟩).after v) 3)) = .ok u d'' ∧ u.ChecksClean ∧ u.Reads M' ∧
        (Operation.put .zero (zeros 5) ⟨0⟩ ⟨0⟩).Leaves Eq M M' := by
  have hd := Device.reliable_ofImage (.blank (Layout.totalSize 2 true))
  rcases format_cases ⟨2, true, by decide, by decide⟩ (.ofImage (.blank (Layout.totalSize 2 true))) with
    ⟨v, hv, hshows⟩ | ⟨-, hfail⟩
  · have hreach : Reachable ⟨2, true, by decide, by decide⟩ (· = .ofBytes (zeros 5)) v := .format hv
    obtain ⟨M, hreads, hall⟩ := recovers_after_crash hreach (fun _ a b ha hb _ => ha.trans hb.symm)
      (.put .zero (zeros 5) ⟨0⟩ ⟨0⟩) fun _ => rfl
    obtain ⟨M', u, d'', hmount, hclean, hreads', hleaves, -⟩ :=
      hall 3 _ ⟨List.reverse, List.reverse_perm⟩ (Device.reliable_ofImage _) rfl
    exact ⟨v, _, M, hv, hreads (hshows.reliable.2 hd), M', u, d'', hmount, hclean, hreads', hleaves⟩
  · exact absurd ⟨hd, Nat.le_refl _⟩ hfail

end Volume

end BlockStore
