import BlockStore.Proofs.Consistency
import BlockStore.Proofs.Queries
import BlockStore.Proofs.Reachable

/-!
# What a repair keeps

A repair frees entries, zeroes blocks and clears bits. None of that is ever a key that can be found or a
value that can be read: whatever damage a volume has, each of its keys stays in the lowest slot that
holds it, with the same entry, and its value stays what it was. The one exception is a value that a
check reports as lost, because the pointer to it leads to no shared block: it reads as zeros afterwards.

## Main definitions

* `View.fetch`: the outcome of reading the value of a slot, on any view.
* `Volume.Retains`: the queries on a volume answer what they did before a repair.

## Main results

* `View.slotOf_repaired`, `keyList_repaired`, `fetch_repaired`: lookup, list and value after a repair.
* `Volume.retains_of_repair`: no repair loses a key, or a value that could be read.
-/

namespace BlockStore

namespace View

variable {w : View} {sb : Superblock} {length : Nat} {visit : List SharedBlock → List SharedBlock}
  {s t : Nat} {key : Key}

/-! ### Lookup and list -/

/-- A key is found in the slot with its first active entry. -/
theorem slotOf_eq_some_iff :
    w.slotOf sb key = some s ↔ s ∈ w.logical sb ∧ (w.keys s).key = key := by
  have hholds (t : Nat) : decide (w.Holds key t) = true ↔ w.Active t ∧ (w.keys t).key = key :=
    decide_eq_true_iff
  rw [slotOf, List.find?_range_eq_some, mem_logical, List.mem_range, hholds]
  constructor
  · rintro ⟨⟨hactive, hkey⟩, hlt, hbelow⟩
    refine ⟨⟨hlt, hactive, fun t ht hactive' hkey' => ?_⟩, hkey⟩
    have hfirst := hbelow t ht
    rw [(hholds t).2 ⟨hactive', hkey'.trans hkey⟩] at hfirst
    cases hfirst
  · rintro ⟨⟨hlt, hactive, hbelow⟩, hkey⟩
    refine ⟨⟨hactive, hkey⟩, hlt, fun t ht => ?_⟩
    rw [Bool.not_eq_true', ← Bool.not_eq_true, hholds]
    rintro ⟨hactive', hkey'⟩
    exact hbelow t ht hactive' (hkey'.trans hkey.symm)

/-- Where a key is found is decided by the entries of the logical slots. -/
theorem slotOf_congr {u : View} (hlogical : u.logical sb = w.logical sb)
    (hkeys : ∀ s ∈ w.logical sb, u.keys s = w.keys s) (key : Key) : u.slotOf sb key = w.slotOf sb key := by
  refine Option.ext ?_
  intro s
  rw [slotOf_eq_some_iff, slotOf_eq_some_iff, hlogical]
  refine and_congr_right ?_
  intro hs
  rw [hkeys s hs]

/-- A repair does not change where a key is found. -/
theorem Within.slotOf_repaired (hw : w.Within sb) (key : Key) :
    (w.repaired sb visit).slotOf sb key = w.slotOf sb key :=
  slotOf_congr hw.logical_repaired (fun _ hs => keys_repaired_of_logical hs) key

/-- The keys of the first active entries are the keys of all active entries, each where it occurs
first. -/
theorem map_key_first (w : View) (n : Nat) :
    (((List.range n).filter fun s => decide (w.First s)).map fun s => (w.keys s).key) =
      (((List.range n).filter fun s => decide (w.Active s)).map fun s => (w.keys s).key).eraseDups := by
  induction n with
  | zero => rfl
  | succ n ih =>
    obtain ⟨seen, hseen⟩ : ∃ seen, seen =
        ((List.range n).filter fun s => decide (w.Active s)).map fun s => (w.keys s).key := ⟨_, rfl⟩
    have hmem : (w.keys n).key ∈ seen ↔ w.Met n (w.keys n).key := by
      rw [hseen, List.mem_map]
      refine exists_congr ?_
      intro t
      rw [List.mem_filter, List.mem_range, decide_eq_true_eq, and_assoc]
    rw [List.range_succ, List.filter_append, List.filter_append, List.map_append, List.map_append, ih,
      List.eraseDups_append, ← hseen]
    congr 1
    by_cases hactive : w.Active n
    · by_cases hmet : w.Met n (w.keys n).key
      · have hlater : ¬ w.First n := fun h => (first_iff.1 h).2 hmet
        simp [hactive, hlater, List.removeAll, hmem.2 hmet]
      · have hfirst : w.First n := first_iff.2 ⟨hactive, hmet⟩
        have hnew : (w.keys n).key ∉ seen := fun h => hmet (hmem.1 h)
        simp [hactive, hfirst, List.removeAll, hnew, List.eraseDups_cons]
    · have hlater : ¬ w.First n := fun h => hactive h.1
      simp [hactive, hlater, List.removeAll]

/-- Without repetitions the list has the keys of the logical slots. -/
theorem eraseDups_keyList (w : View) (sb : Superblock) :
    (w.keyList sb).eraseDups = (w.logical sb).map fun s => (w.keys s).key := by
  rw [logical_eq_filter, map_key_first, keyList]

/-- After a repair each key is listed once, in the place where it was listed first. -/
theorem Within.keyList_repaired (hw : w.Within sb) :
    (w.repaired sb visit).keyList sb = (w.keyList sb).eraseDups := by
  have hslots : ((List.range sb.slots).filter fun s => decide ((w.repaired sb visit).Active s)) =
      w.logical sb := by
    rw [logical_eq_filter]
    refine List.filter_congr ?_
    intro s hs
    rw [decide_eq_decide, hw.active_repaired, mem_logical, and_iff_right (List.mem_range.1 hs)]
  rw [eraseDups_keyList, keyList, hslots]
  refine List.map_congr_left ?_
  intro s hs
  rw [keys_repaired_of_logical hs]

/-! ### Values -/

/-- The outcome of reading the value of a slot. A pointer that leaves the data blocks is an error. -/
def fetch (w : View) (sb : Superblock) (s : Nat) : Except StoreError Block :=
  if sb.isDedup then
    if w.pointer s = 0 then .ok .zero
    else match sb.slotOfBlock (w.pointer s) with
      | some t => .ok (w.data t)
      | none => .error (.notFound (.dataBlock (w.pointer s)))
  else .ok (w.data s)

theorem fetch_of_pointer_eq_zero (hd : sb.isDedup) (hp : w.pointer s = 0) :
    w.fetch sb s = .ok .zero := by
  rw [fetch, if_pos hd, if_pos hp]

theorem fetch_of_pointer_eq (hd : sb.isDedup) (hfits : sb.Fits length) (ht : t < sb.slots)
    (hp : w.pointer s = sb.dataBlock t) : w.fetch sb s = .ok (w.data t) := by
  rw [fetch, if_pos hd, hp, if_neg (hfits.dataBlock_ne_zero t), Superblock.slotOfBlock_dataBlock ht]

theorem fetch_of_plain (hd : ¬ sb.isDedup) : w.fetch sb s = .ok (w.data s) := if_neg hd

/-- A slot whose pointer dangles is logical, so the block that a kept pointer leads to is not one. -/
theorem Claims.not_dangling {b : SharedBlock} (h : w.Claims sb b) : b.slot ∉ w.dangling sb :=
  fun hmem => h.not_logical (mem_dangling.1 hmem).2.1

/-- The value of a logical slot could be read and is what it was, unless its pointer dangles; then it
is zeros. -/
theorem fetch_repaired (hfits : sb.Fits length) (hs : s ∈ w.logical sb) :
    if s ∈ w.dangling sb then (w.repaired sb visit).fetch sb s = .ok .zero
    else ∃ b, w.fetch sb s = .ok b ∧ (w.repaired sb visit).fetch sb s = .ok b := by
  have hreferenced : s ∈ w.referenced sb := List.mem_append_left _ hs
  by_cases hd : sb.isDedup
  · have hpointer : (w.repaired sb visit).pointer s = if s ∈ w.dangling sb then 0 else w.pointer s :=
      pointer_repaired hs
    by_cases hdangling : s ∈ w.dangling sb
    · rw [if_pos hdangling] at hpointer ⊢
      exact fetch_of_pointer_eq_zero hd hpointer
    · rw [if_neg hdangling] at hpointer ⊢
      by_cases hzero : w.pointer s = 0
      · exact ⟨_, fetch_of_pointer_eq_zero hd hzero, fetch_of_pointer_eq_zero hd (hpointer.trans hzero)⟩
      · -- The pointer leads to an accepted block, whose slot is referenced.
        obtain ⟨b, hb, hblock⟩ := exists_block_of_not_dangling hd hs hdangling hzero
        have hclaims := claims_of_mem hb
        have hkept : b.slot ∈ w.kept sb := (mem_kept hfits).2 ⟨b, hb, rfl, s, hs, hblock.symm⟩
        have hdata : (w.repaired sb visit).data b.slot = w.data b.slot := by
          rw [data_repaired (List.mem_append_right _ hkept), if_neg hclaims.not_dangling]
        have htarget : w.pointer s = sb.dataBlock b.slot := hblock.symm.trans hclaims.block_of
        refine ⟨w.data b.slot, fetch_of_pointer_eq hd hfits hclaims.slot_lt htarget, ?_⟩
        rw [fetch_of_pointer_eq hd hfits hclaims.slot_lt (hpointer.trans htarget), hdata]
  · have hnone : s ∉ w.dangling sb := fun h => hd (mem_dangling.1 h).1
    rw [if_neg hnone]
    refine ⟨w.data s, fetch_of_plain hd, ?_⟩
    rw [fetch_of_plain hd, data_repaired hreferenced, if_neg hnone]

/-- The value of a dangling pointer is lost. -/
theorem fetch_repaired_of_mem (hfits : sb.Fits length) (hs : s ∈ w.dangling sb) :
    (w.repaired sb visit).fetch sb s = .ok .zero := by
  have hvalue := @fetch_repaired w sb length visit s hfits (mem_dangling.1 hs).2.1
  rwa [if_pos hs] at hvalue

/-- Any other value stays. -/
theorem fetch_repaired_of_not_mem (hfits : sb.Fits length) (hs : s ∈ w.logical sb)
    (hkept : s ∉ w.dangling sb) : (w.repaired sb visit).fetch sb s = w.fetch sb s := by
  have hvalue := @fetch_repaired w sb length visit s hfits hs
  rw [if_neg hkept] at hvalue
  obtain ⟨b, hb, hvalue⟩ := hvalue
  rw [hvalue, hb]

end View

namespace Volume

variable {sb : Superblock} {r : Prop} {v u : Volume} {w : View} {free : List Nat} {d : Device}
  {visit : List SharedBlock → List SharedBlock} {s : Nat}

/-! ### The queries on any volume -/

theorem Shows.lookup_eq (h : v.Shows sb r w free) (hr : r) (key : Key) :
    v.lookup key = match w.slotOf sb key with
      | some s => .ok s
      | none => .error (.notFound (.key key)) := by
  rcases h.lookup_cases key with ⟨s, hok, hs⟩ | ⟨hnone, hs⟩ | ⟨-, hr'⟩
  · rw [hok, hs]
  · rw [hnone, hs]
  · exact absurd hr hr'

theorem Shows.lookup_eq_ok_iff (h : v.Shows sb r w free) (hr : r) {key : Key} :
    v.lookup key = .ok s ↔ w.slotOf sb key = some s := by
  rw [h.lookup_eq hr]
  cases w.slotOf sb key <;> simp

theorem Shows.entry_eq_ok (h : v.Shows sb r w free) (hr : r) (hs : s < sb.slots) :
    v.keyTable.entry v.device s = .ok (w.keys s) := by
  rw [h.keyTable_eq]
  exact (h.entry_eq hs).resolve_right fun hfault => hfault.2 hr

/-- Only slots of the volume have an entry. -/
theorem Shows.lt_of_entry_eq_ok (h : v.Shows sb r w free) {e : KeyEntry}
    (he : v.keyTable.entry v.device s = .ok e) : s < sb.slots := by
  rw [h.keyTable_eq] at he
  by_cases hs : s < sb.slots
  · exact hs
  · simp [KeyTable.entry, KeyTable.demandSlot, hs, bind, Except.bind] at he

theorem Shows.readPointer_eq_ok (h : v.Shows sb r w free) (hr : r) (hs : s < sb.slots) :
    v.readPointer s = .ok (w.pointer s) :=
  (h.readPointer_eq hs).resolve_right fun hfault => hfault.2 hr

/-- Reading a key that is in a slot. -/
theorem Shows.get_eq_fetch (h : v.Shows sb r w free) (hr : r) {key : Key}
    (hslot : w.slotOf sb key = some s) : v.get key = w.fetch sb s := by
  have hs : s < sb.slots := (View.slotOf_eq_some hslot).1
  have hlookup : v.lookup key = .ok s := (h.lookup_eq_ok_iff hr).2 hslot
  simp only [Volume.get, hlookup, bind, Except.bind, valueBlock, h.superblock, View.fetch]
  by_cases hd : sb.isDedup
  · simp only [hd, if_true, h.readPointer_eq_ok hr hs]
    by_cases hp : w.pointer s = 0
    · simp only [hp, if_true, pure, Except.pure]
    · simp only [hp, if_false]
      cases htarget : sb.slotOfBlock (w.pointer s) with
      | none => rfl
      | some t =>
        obtain ⟨ht, hblock⟩ := Superblock.slotOfBlock_eq_some_iff.1 htarget
        simp only [Option.isNone_some, Bool.false_eq_true, if_false, pure, Except.pure, hblock]
        exact h.readBlock_data hr ht
  · simp only [hd, if_false, pure, Except.pure, Bool.false_eq_true]
    exact h.readBlock_data hr hs

/-! ### Before and after a repair -/

/-- The queries on `u` answer what they answered on `v`. The keys are still in their lowest slots, with
the same entries; the list is the same but for keys listed twice; and the values are the same, except
that those of the `dangling` slots read as zeros. -/
structure Retains (u v : Volume) (dangling : List Nat) : Prop where
  lookup : ∀ key, u.lookup key = v.lookup key
  /-- A key with an active entry is found in the lowest slot with such an entry. -/
  lowest : ∀ s e, v.keyTable.entry v.device s = .ok e → e.isActive → ∃ t ≤ s, v.lookup e.key = .ok t
  entry : ∀ key s, v.lookup key = .ok s → ∃ e, e.isActive ∧ e.key = key ∧
    v.keyTable.entry v.device s = .ok e ∧ u.keyTable.entry u.device s = .ok e
  list : ∃ ks, v.list = .ok ks ∧ u.list = .ok ks.eraseDups
  get : ∀ key s, v.lookup key = .ok s →
    if s ∈ dangling then u.get key = .ok .zero else ∃ b, v.get key = .ok b ∧ u.get key = .ok b

theorem Shows.retains {free' : List Nat} (hv : v.Shows sb r w free)
    (hu : u.Shows sb r (w.repaired sb visit) free') (hr : r) (hw : w.Within sb) :
    u.Retains v (w.dangling sb) where
  lookup key := by rw [hv.lookup_eq hr, hu.lookup_eq hr, hw.slotOf_repaired]
  lowest s e he hactive := by
    have hs := hv.lt_of_entry_eq_ok he
    rw [hv.entry_eq_ok hr hs] at he
    cases he
    -- Some slot up to `s` has the key, since `s` does, and the lowest one is found.
    cases hslot : w.slotOf sb (w.keys s).key with
    | none => exact absurd ⟨hactive, rfl⟩ (View.slotOf_eq_none_iff.1 hslot s hs)
    | some t =>
      obtain ⟨hlogical, hkey⟩ := View.slotOf_eq_some_iff.1 hslot
      refine ⟨t, Nat.le_of_not_lt fun hlt => ?_, (hv.lookup_eq_ok_iff hr).2 hslot⟩
      exact (View.mem_logical.1 hlogical).2.2 s hlt hactive hkey.symm
  entry key s hlookup := by
    obtain ⟨hlogical, hkey⟩ := View.slotOf_eq_some_iff.1 ((hv.lookup_eq_ok_iff hr).1 hlookup)
    obtain ⟨hs, hfirst⟩ := View.mem_logical.1 hlogical
    refine ⟨w.keys s, hfirst.1, hkey, hv.entry_eq_ok hr hs, ?_⟩
    rw [hu.entry_eq_ok hr hs, View.keys_repaired_of_logical hlogical]
  list := ⟨w.keyList sb, hv.list_eq hr, by rw [hu.list_eq hr, hw.keyList_repaired]⟩
  get key s hlookup := by
    have hslot := (hv.lookup_eq_ok_iff hr).1 hlookup
    have hslot' : (w.repaired sb visit).slotOf sb key = some s := by rw [hw.slotOf_repaired, hslot]
    rw [hv.get_eq_fetch hr hslot, hu.get_eq_fetch hr hslot']
    exact View.fetch_repaired hv.fits (View.slotOf_eq_some_iff.1 hslot).1

/-- **A repair loses nothing that could be read.** Whatever a device holds behind a superblock that fits:
mounting it without repair and then repairing it keeps every key where it is found, with its entry, and
every value but those of the slots that are reported to have a dangling pointer. -/
theorem retains_of_repair (hr : d.Reliable) (hread : Superblock.read d = .ok sb)
    (hvisit : ∀ l, (visit l).Perm l) :
    ∃ v report u, mount false d = .ok v d ∧ checkVisiting visit true v = .ok report u ∧
      u.Retains v report.danglingPointers := by
  obtain ⟨hstored, hfits⟩ := Superblock.of_read hread
  have hwithin := View.within_view sb d.image
  rcases attach_cases hstored hfits with ⟨v, hattach, rfl, hv⟩ | ⟨-, hr'⟩
  · obtain ⟨u, free', hrun, -, hu⟩ := hv.check_eq hr hvisit true (View.along_true _ _)
    exact ⟨v, _, u, by simp [mount, mountVisiting, hattach], hrun, hv.retains hu hr hwithin⟩
  · exact absurd hr hr'

/-- A value is stored on a deduplicating volume with two slots, which is then mounted and repaired. -/
theorem retains_two_slots :
    ∃ v d', format ⟨2, true, by decide, by decide⟩ (.ofImage (.blank (Layout.totalSize 2 true))) = .ok v d' ∧
      ∃ d t report u, d = ((Operation.put .zero (zeros 5) ⟨0⟩ ⟨0⟩).after v).device ∧ d.Reliable ∧
        mount false d = .ok t d ∧ checkVisiting List.reverse true t = .ok report u ∧
        u.Retains t report.danglingPointers := by
  have hd := Device.reliable_ofImage (.blank (Layout.totalSize 2 true))
  rcases format_cases ⟨2, true, by decide, by decide⟩ (.ofImage (.blank (Layout.totalSize 2 true))) with
    ⟨v, hv, hshows⟩ | ⟨-, hfail⟩
  · obtain ⟨w, free, hx, -⟩ := passes_after_blank hshows (.put .zero (zeros 5) ⟨0⟩ ⟨0⟩)
    obtain ⟨t, report, u, hmount, hrun, hretains⟩ :=
      retains_of_repair (hx.reliable.2 hd) (hx.read_eq hd) List.reverse_perm
    exact ⟨v, _, hv, _, t, report, u, rfl, hx.reliable.2 hd, hmount, hrun, hretains⟩
  · exact absurd ⟨hd, Nat.le_refl _⟩ hfail

end Volume

end BlockStore
