import BlockStore.Proofs.Contents

/-!
# The queries on a sound volume

On a reliable device the queries answer what the stored map says.

## Main definitions

* `View.keyList`: the stored keys, in slot order.
* `Volume.Reads`: the queries on a volume answer what a map says.

## Main results

* `View.Sound.nodup_keyList`, `mem_keyList`: the list is the domain of the map, each key once.
* `Volume.Shows.reads`: a sound volume reads as the map that it stores.
-/

namespace BlockStore

namespace View

/-- The keys of a view, in slot order. -/
def keyList (w : View) (sb : Superblock) : List Key :=
  ((List.range sb.slots).filter fun s => decide (w.Active s)).map fun s => (w.keys s).key

variable {sb : Superblock} {P : Block → Prop} {σ : Nat → Nat} {w : View} {key : Key}

theorem Sound.nodup_keyList (h : w.Sound sb P σ) : (w.keyList sb).Nodup := by
  refine List.pairwise_map.2 (List.Pairwise.imp_of_mem ?_ (List.nodup_range.filter _))
  intro s t hs ht hst hkey
  have hs := of_decide_eq_true (List.mem_filter.1 hs).2
  have ht := of_decide_eq_true (List.mem_filter.1 ht).2
  exact hst (h.unique hs ht hkey)

theorem Sound.mem_keyList (h : w.Sound sb P σ) : key ∈ w.keyList sb ↔ w.contents sb key ≠ none := by
  rw [keyList, List.mem_map]
  constructor
  · rintro ⟨s, hs, rfl⟩
    rw [h.contents_of_active (of_decide_eq_true (List.mem_filter.1 hs).2)]
    exact Option.some_ne_none _
  · intro hsome
    obtain ⟨b, hb⟩ := Option.ne_none_iff_exists'.1 hsome
    obtain ⟨s, hs, hkey, -⟩ := h.contents_eq_some_iff.1 hb
    exact ⟨s, List.mem_filter.2 ⟨List.mem_range.2 (h.active_lt hs), decide_eq_true hs⟩, hkey⟩

end View

theorem Reads.eq_map_ok {r : Prop} {α : Type} {xs : List α} {ys : List (Except StoreError α)}
    (h : Reads r xs ys) (hr : r) : ys = xs.map .ok := by
  induction h with
  | nil => rfl
  | ok x _ ih => rw [ih, List.map_cons]
  | fault e hn => exact absurd hr hn

theorem collect_map_ok {α : Type} (xs : List α) : collect (xs.map .ok) = .ok xs := by
  induction xs with
  | nil => rfl
  | cons x xs ih =>
    rw [List.map_cons, collect, ih]
    rfl

namespace Volume

/-- The queries answer what the map says. The list is its domain, each key once. -/
structure Reads (v : Volume) (M : KeyMap) : Prop where
  get : ∀ key, v.get key = match M key with
    | some b => .ok b
    | none => .error (.notFound (.key key))
  contains : ∀ key, v.contains key = .ok (M key).isSome
  list : ∃ ks, v.list = .ok ks ∧ ks.Nodup ∧ ∀ key, key ∈ ks ↔ M key ≠ none

variable {sb : Superblock} {r : Prop} {v : Volume} {w : View} {free : List Nat}
  {P : Block → Prop} {σ : Nat → Nat}

theorem activeOf_map_ok (w : View) (l : List Nat) :
    KeyTable.activeOf ((l.map fun s => (s, w.keys s)).map .ok) =
      ((l.filter fun s => decide (w.Active s)).map fun s => (s, (w.keys s).key)).map .ok := by
  induction l with
  | nil => rfl
  | cons s l ih =>
    rw [List.map_cons, List.map_cons, KeyTable.activeOf, ih]
    by_cases hs : w.Active s
    · rw [List.filter_cons, if_pos (decide_eq_true hs)]
      exact if_pos hs
    · rw [List.filter_cons, if_neg fun h => hs (of_decide_eq_true h)]
      exact if_neg hs

theorem Shows.entries_eq (h : v.Shows sb r w free) (hr : r) :
    v.entries = (((List.range sb.slots).filter fun s => decide (w.Active s)).map
      fun s => (s, (w.keys s).key)).map .ok := by
  rw [entries, KeyTable.activeKeys, h.reads_entries.eq_map_ok hr, Superblock.keyEntries, activeOf_map_ok]

theorem Shows.list_eq (h : v.Shows sb r w free) (hr : r) : v.list = .ok (w.keyList sb) := by
  rw [list, h.entries_eq hr, collect_map_ok]
  simp only [bind, Except.bind, pure, Except.pure, List.map_map, View.keyList]
  rfl

theorem Shows.contains_eq (h : v.Shows sb r w free) (hr : r) (key : Key) :
    v.contains key = .ok (w.contents sb key).isSome := by
  rcases h.contains_cases key with hok | ⟨-, hr'⟩
  · rw [hok, View.contents, Option.isSome_map]
  · exact absurd hr hr'

theorem Shows.readBlock_data (h : v.Shows sb r w free) (hr : r) {s : Nat} (hs : s < sb.slots) :
    v.device.readBlock (sb.dataBlock s) = .ok (w.data s) := by
  rcases h.readBlock_eq (h.dataBlock_lt hs) with hok | ⟨-, hr'⟩
  · rw [hok, h.data_eq hs]
  · exact absurd hr hr'

/-- The value of a slot of a deduplicating volume is where its pointer leads to. -/
theorem Shows.valueBlock_eq (h : v.Shows sb r w free) (hr : r) (hd : sb.isDedup) (hw : w.Sound sb P σ)
    {s : Nat} (hs : w.Active s) :
    v.valueBlock s = .ok (if w.pointer s = 0 then none else some (w.pointer s)) := by
  have hpointer : v.readPointer s = .ok (w.pointer s) :=
    (h.readPointer_eq (hw.active_lt hs)).resolve_right fun hfault => hfault.2 hr
  simp only [valueBlock, h.superblock, hd, if_true, hpointer, bind, Except.bind]
  by_cases hp : w.pointer s = 0
  · simp only [hp, if_true]
    rfl
  · obtain ⟨i, t, -, ht, -, htarget, -⟩ := hw.exists_target hd hs hp
    rw [if_neg hp, if_neg hp, htarget, Superblock.slotOfBlock_dataBlock ht]
    rfl

/-- Reading a key gives its value. -/
theorem Shows.get_eq (h : v.Shows sb r w free) (hr : r) (hw : w.Sound sb P σ) (key : Key) :
    v.get key = match w.contents sb key with
      | some b => .ok b
      | none => .error (.notFound (.key key)) := by
  rcases h.lookup_cases key with ⟨s, hok, hs⟩ | ⟨hnone, hs⟩ | ⟨-, hr'⟩
  · obtain ⟨hactive, -⟩ := hw.slotOf_eq_some_iff.1 hs
    have hcontents : w.contents sb key = some (w.value sb s) := by rw [View.contents, hs]; rfl
    simp only [Volume.get, hok, bind, Except.bind, hcontents]
    cases hd : sb.isDedup with
    | false =>
      have hblock : v.valueBlock s = .ok (some (sb.dataBlock s)) := by
        simp only [valueBlock, h.superblock, hd, Bool.false_eq_true, if_false, pure, Except.pure]
      simp only [hblock]
      rw [h.readBlock_data hr (hw.active_lt hactive), View.value_of_plain hd]
    | true =>
      rw [h.valueBlock_eq hr hd hw hactive]
      by_cases hp : w.pointer s = 0
      · simp only [hp, if_true, pure, Except.pure, View.value_of_pointer_eq_zero hd hp]
      · obtain ⟨i, t, -, ht, -, htarget, -⟩ := hw.exists_target hd hactive hp
        simp only [hp, if_false]
        rw [htarget, h.readBlock_data hr ht, View.value_of_pointer_eq hd h.fits ht htarget]
  · have hcontents : w.contents sb key = none := View.contents_eq_none_iff.2 hs
    simp only [Volume.get, hnone, bind, Except.bind, hcontents]
  · exact absurd hr hr'

theorem Shows.reads (h : v.Shows sb r w free) (hr : r) (hw : w.Sound sb P σ) :
    v.Reads (w.contents sb) where
  get key := h.get_eq hr hw key
  contains key := h.contains_eq hr key
  list := ⟨w.keyList sb, h.list_eq hr, hw.nodup_keyList, fun _ => hw.mem_keyList⟩

end Volume

end BlockStore
