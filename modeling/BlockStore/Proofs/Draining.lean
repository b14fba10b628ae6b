import BlockStore.Proofs.Faultless
import BlockStore.Proofs.Queries
import BlockStore.Proofs.Swept

/-!
# Draining a volume

Everything that an operation writes is taken back by the time that the last key is gone: the entries of
slots and of the dedup table become the free entries again, data blocks become zero, whether they held a
value, a pointer or a shared block, and bits are cleared. So a volume without keys looks as it did when
it was formatted. As no write ever reaches what is not part of the view, the device then holds the same
bytes.

This takes a device without faults. After a fault a slot may stay in use that nobody owns, and a count
that is too high keeps its block.

## Main definitions

* `Operation.afterAll`: the volume after a sequence of operations.
* `View.Spotless`: every slot in use has an owner, every count is exact, and there are no leftovers.

## Main results

* `View.Spotless.eq_blank`: without keys such a view is blank.
* `Volume.spotless_operation`: operations keep a volume spotless.
* `Volume.list_after_removal`: any sequence of operations can be followed by one that leaves no key.
* `Volume.restored_of_drained`: what is on the device once no key is left.
-/

namespace BlockStore

namespace Operation

/-- The volume after operations, one after the other, each of which has succeeded or failed. -/
def afterAll (ops : List Operation) (v : Volume) : Volume := ops.foldl (fun v o => o.after v) v

theorem afterAll_append (ops ops' : List Operation) (v : Volume) :
    afterAll (ops ++ ops') v = afterAll ops' (afterAll ops v) := List.foldl_append

end Operation

/-- Slots that are in use are slots of the volume. -/
theorem Superblock.lt_of_used {sb : Superblock} {im : Image} {s : Nat} (h : (sb.view im).used s) :
    s < sb.slots := by
  simp only [view, Bool.and_eq_true, decide_eq_true_eq] at h
  exact h.1

namespace View

variable {sb : Superblock} {w : View}

/-- Counts are exact, every slot in use has an owner, and what is not in use is the free entry. -/
structure Spotless (sb : Superblock) (w : View) : Prop where
  exact : w.Exact sb
  swept : w.Swept

theorem spotless_blank (sb : Superblock) : blank.Spotless sb := ⟨exact_blank sb, swept_blank⟩

/-- Without keys there are no pointers, so nothing is shared, so no slot has an owner. -/
theorem Spotless.eq_blank (h : w.Spotless sb) (hlt : ∀ s, w.used s → s < sb.slots)
    (hidle : ∀ s, ¬ w.Active s) : w = .blank := by
  have hnone (i : Nat) : ¬ w.Held i := fun hi => by
    obtain ⟨hpos, hcount⟩ := h.exact.sound.counted hi
    have hrefs : w.refs sb (w.shared i).block = 0 :=
      List.countP_eq_zero.2 fun s _ => by simp [hidle s]
    omega
  have hclear (s : Nat) : w.used s = false := by
    rw [← Bool.not_eq_true]
    intro hused
    rcases (h.exact.used_iff (hlt s hused)).1 hused with hactive | ⟨i, hi, -⟩
    · exact hidle s hactive
    · exact hnone i hi
  exact View.ext (fun s => h.exact.sound.vacant (hidle s)) (fun i => h.swept i (hnone i)) hclear
    fun s => h.exact.sound.blank (hclear s)

end View

namespace Volume

variable {sb : Superblock} {v u : Volume} {w : View} {free : List Nat} {l : Layout} {d d' : Device}

/-! ### One operation -/

/-- No operation leaves anything behind in the dedup table; a check has nothing to do. -/
theorem swept_operation (h : v.Shows sb True w free) (hw : w.Spotless sb) (o : Operation) :
    (sb.view (o.after v).device.image).Swept := by
  have hv : v.Swept sb := ⟨h.seated, h.view.symm ▸ hw.swept⟩
  have hafter (hrun : Sweeps sb o.run v fun _ => True) : (sb.view (o.after v).device.image).Swept :=
    hrun.after.view
  cases o with
  | create key now => exact hafter ((sweeps_create hv key now).bind fun _ _ _ hu => .pure hu trivial)
  | put key data created stored =>
    exact hafter ((sweeps_put hv key data created stored).bind fun _ _ _ hu => .pure hu trivial)
  | remove key => exact hafter (sweeps_remove hv key)
  | rename old new => exact hafter (sweeps_rename hv old new)
  | query f => exact hafter (.look hv fun _ _ => trivial)
  | check order repair =>
    obtain ⟨report, u, free', hrun, -, -, hu⟩ :=
      h.check_of_tidy trivial (hw.exact.tidy h.fits) order.perm repair
    have hdone : (Operation.check order repair).after v = u := by
      rw [Operation.after, Operation.run, bind_of_ok hrun]
      rfl
    rw [hdone, hu.view]
    exact hw.swept

/-- Without faults an operation keeps a volume spotless, whether it succeeds or not. -/
theorem spotless_operation (h : v.Shows sb True w free) (hw : w.Spotless sb) (o : Operation) :
    Passes sb True (View.Spotless sb) (o.after v) := by
  obtain ⟨w', free', hu, hexact⟩ := exact_operation h hw.exact o
  exact ⟨w', free', hu, hexact, hu.view ▸ swept_operation h hw o⟩

theorem spotless_operations (h : Passes sb True (View.Spotless sb) v) (ops : List Operation) :
    Passes sb True (View.Spotless sb) (Operation.afterAll ops v) := by
  induction ops generalizing v with
  | nil => exact h
  | cons o ops ih =>
    obtain ⟨w, free, hv, hw⟩ := h
    exact ih (spotless_operation hv hw o)

/-- Operations make nothing but edits. -/
theorem Seated.edited_afterAll (h : v.Seated sb) (ops : List Operation) :
    Edited sb v (Operation.afterAll ops v) := by
  induction ops generalizing v with
  | nil => exact .refl
  | cons o ops ih =>
    have ho := h.edited_after o
    exact ho.trans (ih (h.edited ho))

/-! ### Removing keys -/

/-- A key that an operation does not name keeps its value, or stays absent. -/
theorem contents_operation (h : v.Shows sb True w free) (hw : w.Spotless sb) (o : Operation) :
    Passes sb True (fun w' => w'.Spotless sb ∧ ∀ k ∉ o.names, w'.contents sb k = w.contents sb k)
      (o.after v) := by
  obtain ⟨w', free', hu, hw'⟩ := spotless_operation h hw o
  have htrail := trail_operation h hw.exact.sound o o.stores_true
  obtain ⟨w'', free'', hu', -, -, hleaves⟩ :=
    htrail.passes (h.passes ⟨_, hw.exact.sound, o.leaves_self _ _⟩)
  obtain rfl : w'' = w' := hu'.view.symm.trans hu.view
  exact ⟨w'', free', hu, hw', fun k hk => hleaves.of_not_mem hk⟩

/-- A key that is removed is gone, whether it was there or not. -/
theorem contents_remove (h : v.Shows sb True w free) (hw : w.Spotless sb) (key : Key) :
    Passes sb True (fun w' => w'.Spotless sb ∧ w'.contents sb = (w.contents sb).erase key)
      ((Operation.remove key).after v) := by
  obtain ⟨w', free', hu, hw'⟩ := spotless_operation h hw (.remove key)
  refine ⟨w', free', hu, hw', ?_⟩
  rw [Operation.after, Operation.run] at hu
  rcases (runs_remove h hw.exact.sound key).result with
    ⟨_, x, hrun, -, -, w'', free'', hx, -, hmap, -⟩ | ⟨e, x, hrun, -, he⟩
  · rw [hrun] at hu
    obtain rfl : w'' = w' := hx.view.symm.trans hu.view
    exact hmap
  · rw [hrun] at hu
    obtain ⟨hx, -, hnone⟩ := he trivial
    obtain rfl : w = w' := hx.view.symm.trans hu.view
    funext k
    by_cases hk : k = key
    · rw [hk, KeyMap.erase_self, hnone]
    · rw [KeyMap.erase_of_ne _ _ _ hk]

/-- Keys that operations do not name are not stored. -/
theorem contents_operations {keys : List Key}
    (h : Passes sb True (fun w => w.Spotless sb ∧ ∀ k ∉ keys, w.contents sb k = none) v)
    (ops : List Operation) (hops : ∀ o ∈ ops, o.names ⊆ keys) :
    Passes sb True (fun w => w.Spotless sb ∧ ∀ k ∉ keys, w.contents sb k = none)
      (Operation.afterAll ops v) := by
  induction ops generalizing v with
  | nil => exact h
  | cons o ops ih =>
    obtain ⟨w, free, hv, hw, hnone⟩ := h
    obtain ⟨w', free', hu, hw', hsame⟩ := contents_operation hv hw o
    refine ih ⟨w', free', hu, hw', fun k hk => ?_⟩ fun o' ho' => hops o' (List.mem_cons_of_mem _ ho')
    rw [hsame k fun hmem => hk (hops o List.mem_cons_self hmem)]
    exact hnone k hk

/-- Of the keys that may be stored, those that are removed are stored no longer. -/
theorem contents_removeAll {keys rest : List Key}
    (h : Passes sb True (fun w => w.Spotless sb ∧ ∀ k ∉ keys ++ rest, w.contents sb k = none) v) :
    Passes sb True (fun w => w.Spotless sb ∧ ∀ k ∉ rest, w.contents sb k = none)
      (Operation.afterAll (keys.map .remove) v) := by
  induction keys generalizing v with
  | nil => exact h
  | cons key keys ih =>
    obtain ⟨w, free, hv, hw, hnone⟩ := h
    obtain ⟨w', free', hu, hw', hmap⟩ := contents_remove hv hw key
    refine ih ⟨w', free', hu, hw', fun k hk => ?_⟩
    rw [hmap]
    by_cases hkey : k = key
    · rw [hkey, KeyMap.erase_self]
    · rw [KeyMap.erase_of_ne _ _ _ hkey]
      exact hnone k fun hmem => (List.mem_cons.1 hmem).elim hkey hk

/-- Whatever has been done to a volume, no key is left after those that were named are removed. -/
theorem list_after_removal (hd : d.Reliable) (h : format l d = .ok v d') (ops : List Operation) :
    (Operation.afterAll (ops ++ (ops.flatMap Operation.names).map .remove) v).list = .ok [] := by
  have hstart : Passes l.superblock True (fun w => w.Spotless l.superblock ∧
      ∀ k ∉ ops.flatMap Operation.names ++ [], w.contents l.superblock k = none) v :=
    (shows_of_format_reliable hd h).passes
      ⟨View.spotless_blank _, fun k _ => congrFun (View.contents_blank _) k⟩
  rw [Operation.afterAll_append]
  obtain ⟨w, free, hu, hw, hnone⟩ := contents_removeAll (contents_operations hstart ops fun o ho k hk =>
    List.mem_append_left _ (List.mem_flatMap.2 ⟨o, ho, hk⟩))
  have hkeys : w.keyList l.superblock = [] := List.eq_nil_iff_forall_not_mem.2 fun k hk =>
    hw.exact.sound.mem_keyList.1 hk (hnone k List.not_mem_nil)
  rw [hu.list_eq trivial, hkeys]

/-! ### No key is left -/

/-- A spotless volume that lists no key is blank. -/
theorem Shows.eq_blank_of_list (h : v.Shows sb True w free) (hw : w.Spotless sb)
    (hempty : v.list = .ok []) : w = .blank := by
  have hkeys : w.keyList sb = [] := Except.ok.inj ((h.list_eq trivial).symm.trans hempty)
  refine hw.eq_blank (fun s hs => ?_) fun s hs => ?_
  · rw [← h.view] at hs
    exact Superblock.lt_of_used hs
  · have hmem : (w.keys s).key ∈ w.keyList sb := by
      rw [hw.exact.sound.mem_keyList, hw.exact.sound.contents_of_active hs]
      exact Option.some_ne_none _
    rw [hkeys] at hmem
    cases hmem

/-- **A drained volume is as it was formatted.** For every layout, and every sequence of operations on
a freshly formatted volume without faults, whether they succeed or are refused: if no key is left, every
byte on the device is what it was right after formatting, and all slots are free. -/
theorem restored_of_drained (hd : d.Reliable) (h : format l d = .ok v d') (ops : List Operation)
    (hempty : (Operation.afterAll ops v).list = .ok []) :
    (Operation.afterAll ops v).device.image = d'.image ∧
      (Operation.afterAll ops v).freeCount = l.slots ∧
      (Operation.afterAll ops v).allocator.free.Perm (List.range l.slots) ∧
      (Operation.afterAll ops v).allocator.bitmap = v.allocator.bitmap := by
  have hv := shows_of_format_reliable hd h
  obtain ⟨w, free, hu, hw⟩ := spotless_operations (hv.passes (View.spotless_blank _)) ops
  obtain rfl := hu.eq_blank_of_list hw hempty
  have hmargin := (hv.seated.edited_afterAll ops).sameMargin hv.seated
  have himage : (Operation.afterAll ops v).device.image = v.device.image :=
    hmargin.eq_of_view (hu.view.trans hv.view.symm)
  have hperm : (List.range l.slots).Perm free := by
    rw [← l.slots_superblock, ← clearSlots_blank]
    exact hu.free_perm
  refine ⟨?_, ?_, hu.free ▸ hperm.symm, ?_⟩
  · rw [himage, device_of_format h]
  · rw [hu.freeCount_eq, ← hperm.length_eq, List.length_range]
  · rw [hu.bitmap_eq, hv.bitmap_eq, himage]

/-- On a deduplicating volume with two slots a value is stored. Its key cannot be created again, and is
removed twice. -/
theorem restored_two_slots :
    ∃ v d', format ⟨2, true, by decide, by decide⟩
        (.ofImage (.blank (Layout.totalSize 2 true))) = .ok v d' ∧
      ∃ u, u = Operation.afterAll [.put .zero (zeros 5) ⟨0⟩ ⟨0⟩, .create .zero ⟨0⟩, .remove .zero,
          .remove .zero] v ∧
        u.list = .ok [] ∧ u.device.image = d'.image ∧ u.freeCount = 2 := by
  have hd := Device.reliable_ofImage (.blank (Layout.totalSize 2 true))
  obtain ⟨v, hv, -⟩ := exists_format_blank ⟨2, true, by decide, by decide⟩
  have hempty := list_after_removal hd hv [.put .zero (zeros 5) ⟨0⟩ ⟨0⟩, .create .zero ⟨0⟩]
  obtain ⟨himage, hcount, -⟩ := restored_of_drained hd hv _ hempty
  exact ⟨v, _, hv, _, rfl, hempty, himage, hcount⟩

end Volume

end BlockStore
