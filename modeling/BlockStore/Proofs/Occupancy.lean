import BlockStore.Proofs.Usage

/-!
# The slots that a map takes

How many slots are free shows in what a volume answers: a value is not stored if there are too few. On a
volume without faults the number is a matter of the map alone. Each key has a slot, and on a deduplicating
volume each different value has one more.

There is one exception. A key that was created and never given a value reads as zeros, and no block is kept
for it; so the map does not tell whether its value takes a slot. Storing, deleting and renaming make no such
key.

## Main definitions

* `KeyMap.Occupies`: the number of slots for a map.

## Main results

* `KeyMap.Occupies.unique`: there is one such number.
* `View.Exact.occupies`: the slots in use, when every key has been given a value.
* `Volume.Shows.bare_after`: no call but creating a key makes a key without a value.
-/

namespace BlockStore

namespace KeyMap

/-- A volume with this map has so many slots in use: one for each key, and on a deduplicating volume one
for each different value. -/
def Occupies (dedup : Bool) (M : KeyMap) (n : Nat) : Prop :=
  ∃ keys : List Key, keys.Nodup ∧ (∀ key, key ∈ keys ↔ M key ≠ none) ∧
    n = keys.length + if dedup then (keys.filterMap M).dedup.length else 0

theorem Occupies.unique {dedup : Bool} {M : KeyMap} {m n : Nat} (hm : M.Occupies dedup m)
    (hn : M.Occupies dedup n) : m = n := by
  obtain ⟨keys, hnodup, hkeys, rfl⟩ := hm
  obtain ⟨keys', hnodup', hkeys', rfl⟩ := hn
  have hperm : keys.Perm keys' := by
    rw [List.perm_ext_iff_of_nodup hnodup hnodup']
    intro key
    rw [hkeys, hkeys']
  rw [hperm.length_eq, ((hperm.filterMap M).dedup).length_eq]

end KeyMap

namespace View

variable {sb : Superblock} {length : Nat} {w : View}

/-- When every key has been given a value, the values that were given are those of the map. -/
theorem givenValues_eq_filterMap {P : Block → Prop} {σ : Nat → Nat} (h : w.Sound sb P σ)
    (hgiven : ∀ s, ¬ w.Bare s) : w.givenValues sb = (w.keyList sb).filterMap (w.contents sb) := by
  rw [givenValues, keyList, List.filterMap_map]
  generalize List.range sb.slots = slots
  induction slots with
  | nil => rfl
  | cons s slots ih =>
    by_cases hs : w.Active s
    · have hp : w.pointer s ≠ 0 := fun hp => hgiven s ⟨hs, hp⟩
      simpa [hs, View.Given, hp, h.contents_of_active hs] using ih
    · simpa [hs, View.Given] using ih

/-- The slots in use are those that the map takes. -/
theorem Exact.occupies (hfits : sb.Fits length) (h : w.Exact sb)
    (hgiven : sb.isDedup → ∀ s, ¬ w.Bare s) :
    (w.contents sb).Occupies sb.isDedup ((List.range sb.slots).countP fun s => w.used s) := by
  refine ⟨w.keyList sb, h.sound.nodup_keyList, fun key => h.sound.mem_keyList, ?_⟩
  rw [h.countP_used]
  by_cases hd : sb.isDedup
  · rw [if_pos hd, ← givenValues_eq_filterMap h.sound (hgiven hd),
      h.sound.length_dedup_givenValues hfits hd]
    rfl
  · have hnone : w.heldCount sb = 0 := by
      rw [heldCount, List.countP_eq_zero]
      intro i _ hi
      exact h.sound.not_held (Bool.not_eq_true _ ▸ hd) (of_decide_eq_true hi)
    rw [if_neg hd, hnone]

end View

namespace Volume

variable {sb : Superblock} {v : Volume} {w w' : View} {free free' : List Nat}

/-- The slots that are left free are those that the map does not take. -/
theorem Shows.exists_occupies (h : v.Shows sb True w free) (hw : w.Exact sb)
    (hgiven : sb.isDedup → ∀ s, ¬ w.Bare s) :
    ∃ n, (w.contents sb).Occupies sb.isDedup n ∧ v.freeCount = sb.slots - n := by
  refine ⟨_, hw.occupies h.fits hgiven, ?_⟩
  have hall := h.length_free_add
  rw [h.freeCount_eq]
  omega

/-- No call but creating a key makes a key without a value. -/
theorem Shows.bare_after (h : v.Shows sb True w free) (hw : w.Exact sb) (hd : sb.isDedup) {c : Call}
    (hc : ∀ key now, c ≠ .create key now) (hu : (c.after v).Shows sb True w' free') {s : Nat}
    (hs : w'.Bare s) : w.Bare s := by
  have hsame {u : Volume} (hafter : c.after v = u) (hu' : u.Shows sb True w free) : w.Bare s := by
    rw [hafter] at hu
    rwa [hu'.view.symm.trans hu.view]
  have hdone {u : Volume} {x : View} {y : List Nat} (hafter : c.after v = u) (hu' : u.Shows sb True x y)
      (hx : ∀ {t}, x.Bare t → w.Bare t) : w.Bare s := by
    rw [hafter] at hu
    rw [← hu'.view.symm.trans hu.view] at hs
    exact hx hs
  cases c with
  | create key now => exact absurd rfl (hc key now)
  | put key data created stored =>
    rcases (runs_put h hw.sound key data (fun _ => trivial) created stored).result with
      ⟨_, u, hrun, -, -, -, x, y, -, -, hu', -, -, -, -, hx⟩ | ⟨e, u, hrun, -, he⟩
    · exact hdone (reply_of_ok rfl hrun).2 hu' (hx hd)
    · exact hsame (reply_of_error rfl hrun).2 (he trivial).1
  | remove key =>
    rcases (runs_remove h hw.sound key).result with
      ⟨_, u, hrun, -, -, x, y, hu', -, -, hx⟩ | ⟨e, u, hrun, -, he⟩
    · exact hdone (reply_of_ok rfl hrun).2 hu' hx
    · exact hsame (reply_of_error rfl hrun).2 (he trivial).1
  | rename old new =>
    rcases (runs_rename h hw.sound old new).result with
      ⟨_, u, hrun, -, -, -, x, hu', -, -, hx⟩ | ⟨e, u, hrun, -, he⟩
    · exact hdone (reply_of_ok rfl hrun).2 hu' hx
    · exact hsame (reply_of_error rfl hrun).2 (he trivial).1
  | get key => exact hsame (reply_of_query v rfl).2 h
  | contains key => exact hsame (reply_of_query v rfl).2 h
  | list => exact hsame (reply_of_query v rfl).2 h

end Volume

end BlockStore
