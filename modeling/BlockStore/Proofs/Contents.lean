import BlockStore.Proofs.Sound

/-!
# The map that a volume stores

To its users a volume is a map from keys to blocks. Which slot holds a key and where its value lies is
read off the view; the changes of a sound volume are here seen as changes of the map, and most of them
leave it alone.

## Main definitions

* `KeyMap`: partial maps from keys to blocks; `KeyMap.insert`, `erase`, `move` change one.
* `View.value`: the value of a slot.
* `View.contents`: the map that a view stores.

## Main results

* `View.Sound.contents_setData`, `contents_touch`: what does not show.
* `View.Sound.contents_activate`, `contents_rekey`, `contents_freeKey`, `contents_setValue`: what does.
-/

namespace BlockStore

/-- A partial map from keys to blocks. -/
abbrev KeyMap := Key → Option Block

namespace KeyMap

/-- The map with a key that maps to a block. -/
def insert (M : KeyMap) (key : Key) (b : Block) : KeyMap := fun k => if k = key then some b else M k

/-- The map without a key. -/
def erase (M : KeyMap) (key : Key) : KeyMap := fun k => if k = key then none else M k

/-- The map with the value of one key, if it has one, under another key instead. -/
def move (M : KeyMap) (old new : Key) : KeyMap := fun k =>
  if k = new then M old else if k = old then none else M k

variable (M : KeyMap) (key k : Key) (b : Block)

@[simp] theorem insert_self : M.insert key b key = some b := if_pos rfl

theorem insert_of_ne (h : k ≠ key) : M.insert key b k = M k := if_neg h

@[simp] theorem erase_self : M.erase key key = none := if_pos rfl

theorem erase_of_ne (h : k ≠ key) : M.erase key k = M k := if_neg h

theorem insert_insert (b' : Block) : (M.insert key b).insert key b' = M.insert key b' := by
  funext k
  by_cases h : k = key <;> simp [insert, h]

theorem erase_insert (h : M key = none) : (M.insert key b).erase key = M := by
  funext k
  by_cases hk : k = key <;> simp [insert, erase, hk, h]

theorem erase_insert_self : (M.insert key b).erase key = M.erase key := by
  funext k
  by_cases hk : k = key <;> simp [insert, erase, hk]

@[simp] theorem move_new (old new : Key) : M.move old new new = M old := if_pos rfl

theorem move_self : M.move key key = M := by
  funext k
  by_cases hk : k = key <;> simp [move, hk]

theorem move_of_ne {old new : Key} (hold : k ≠ old) (hnew : k ≠ new) : M.move old new k = M k := by
  simp [move, hold, hnew]

end KeyMap

namespace View

/-- The value of a slot. On a deduplicating volume it is the block that its pointer leads to, and zeros
if there is none. -/
def value (w : View) (sb : Superblock) (s : Nat) : Block :=
  if sb.isDedup then
    if w.pointer s = 0 then .zero
    else match sb.slotOfBlock (w.pointer s) with
      | some t => w.data t
      | none => .zero
  else w.data s

/-- The map that a view stores. -/
def contents (w : View) (sb : Superblock) : KeyMap := fun key =>
  (w.slotOf sb key).map (w.value sb)

variable {sb : Superblock} {length : Nat} {P : Block → Prop} {σ τ : Nat → Nat} {w w' : View}
  {s t i p : Nat} {key : Key} {b : Block}

theorem value_of_pointer_eq_zero (hd : sb.isDedup) (hp : w.pointer s = 0) : w.value sb s = .zero := by
  rw [value, if_pos hd, if_pos hp]

theorem value_of_pointer_eq (hd : sb.isDedup) (hfits : sb.Fits length) (ht : t < sb.slots)
    (hp : w.pointer s = sb.dataBlock t) : w.value sb s = w.data t := by
  rw [value, if_pos hd, hp, if_neg (hfits.dataBlock_ne_zero t), Superblock.slotOfBlock_dataBlock ht]

theorem value_of_plain (hd : sb.isDedup = false) : w.value sb s = w.data s := by
  rw [value, if_neg (by rw [hd]; decide)]

theorem slotOf_eq_none_iff :
    w.slotOf sb key = none ↔ ∀ s < sb.slots, ¬ w.Holds key s := by
  rw [slotOf, List.find?_eq_none]
  simp

theorem slotOf_eq_some (h : w.slotOf sb key = some s) :
    s < sb.slots ∧ w.Active s ∧ (w.keys s).key = key := by
  have hholds : decide (w.Holds key s) = true := List.find?_some (p := fun s => decide (w.Holds key s)) h
  exact ⟨List.mem_range.1 (List.mem_of_find?_eq_some h), of_decide_eq_true hholds⟩

theorem contents_eq_none_iff : w.contents sb key = none ↔ w.slotOf sb key = none :=
  Option.map_eq_none_iff

theorem contents_blank (sb : Superblock) : blank.contents sb = fun _ => none := by
  funext key
  rw [View.contents_eq_none_iff, slotOf_eq_none_iff]
  intro s _ hs
  have hkey : KeyEntry.free.isActive = false := by decide
  simp [Holds, blank, hkey] at hs

namespace Sound

theorem slotOf_eq_some_iff (h : w.Sound sb P σ) :
    w.slotOf sb key = some s ↔ w.Active s ∧ (w.keys s).key = key := by
  refine ⟨fun hs => (slotOf_eq_some hs).2, fun ⟨hs, hkey⟩ => ?_⟩
  cases hfind : w.slotOf sb key with
  | none => exact absurd ⟨hs, hkey⟩ (slotOf_eq_none_iff.1 hfind s (h.active_lt hs))
  | some t =>
    obtain ⟨-, ht, hkeyt⟩ := slotOf_eq_some hfind
    rw [h.unique ht hs (hkeyt.trans hkey.symm)]

theorem contents_eq_some_iff (h : w.Sound sb P σ) :
    w.contents sb key = some b ↔ ∃ s, w.Active s ∧ (w.keys s).key = key ∧ w.value sb s = b := by
  rw [contents, Option.map_eq_some_iff]
  constructor
  · rintro ⟨s, hs, hb⟩
    obtain ⟨hactive, hkey⟩ := h.slotOf_eq_some_iff.1 hs
    exact ⟨s, hactive, hkey, hb⟩
  · rintro ⟨s, hactive, hkey, hb⟩
    exact ⟨s, h.slotOf_eq_some_iff.2 ⟨hactive, hkey⟩, hb⟩

theorem contents_of_active (h : w.Sound sb P σ) (hs : w.Active s) :
    w.contents sb (w.keys s).key = some (w.value sb s) :=
  h.contents_eq_some_iff.2 ⟨s, hs, rfl, rfl⟩

theorem contents_eq_none_iff (h : w.Sound sb P σ) :
    w.contents sb key = none ↔ ∀ s, w.Active s → (w.keys s).key ≠ key := by
  rw [View.contents_eq_none_iff, slotOf_eq_none_iff]
  exact ⟨fun hn s hs hkey => hn s (h.active_lt hs) ⟨hs, hkey⟩, fun hn s _ hs => hn s hs.1 hs.2⟩

/-- A pointer leads to the block of a slot that is in use and has no key. -/
theorem exists_target (hd : sb.isDedup) (h : w.Sound sb P σ) (hs : w.Active s)
    (hp : w.pointer s ≠ 0) :
    ∃ i t, w.Held i ∧ t < sb.slots ∧ (w.shared i).block = w.pointer s ∧
      w.pointer s = sb.dataBlock t ∧ ¬ w.Active t := by
  obtain ⟨i, hi, hblock⟩ := h.backed hd hs hp
  obtain ⟨t, ht, hhome, -, hidle, -⟩ := h.home hi
  exact ⟨i, t, hi, ht, hblock, hblock.symm.trans hhome, hidle⟩

/-- The value of a slot does not change as long as its own block and the shared blocks do not. -/
theorem value_congr (hfits : sb.Fits length) (h : w.Sound sb P σ) (hs : w.Active s)
    (hself : w'.data s = w.data s)
    (hshared : ∀ i t, w.Held i → (w.shared i).block = sb.dataBlock t → w'.data t = w.data t) :
    w'.value sb s = w.value sb s := by
  have hpointer : w'.pointer s = w.pointer s := by rw [pointer, pointer, hself]
  cases hd : sb.isDedup with
  | false => rw [value_of_plain hd, value_of_plain hd, hself]
  | true =>
    by_cases hp : w.pointer s = 0
    · rw [value_of_pointer_eq_zero hd hp, value_of_pointer_eq_zero hd (hpointer.trans hp)]
    · obtain ⟨i, t, hi, ht, hblock, htarget, -⟩ := h.exists_target hd hs hp
      rw [value_of_pointer_eq hd hfits ht htarget,
        value_of_pointer_eq hd hfits ht (hpointer.trans htarget),
        hshared i t hi (hblock.trans htarget)]

/-- Views where the same slots have a key, with the same values, store the same under it. -/
theorem contents_congr_of_slots (h : w.Sound sb P σ) (h' : w'.Sound sb P τ)
    (hslots : ∀ s b, (w'.Active s ∧ (w'.keys s).key = key ∧ w'.value sb s = b) ↔
      (w.Active s ∧ (w.keys s).key = key ∧ w.value sb s = b)) : w'.contents sb key = w.contents sb key := by
  refine Option.ext ?_
  intro b
  rw [h.contents_eq_some_iff, h'.contents_eq_some_iff]
  exact exists_congr fun s => hslots s b

/-- Views with the same entries and values store the same map. -/
theorem contents_congr (h : w.Sound sb P σ) (h' : w'.Sound sb P τ)
    (hactive : ∀ s, w'.Active s ↔ w.Active s)
    (hkey : ∀ s, w.Active s → (w'.keys s).key = (w.keys s).key)
    (hvalue : ∀ s, w.Active s → w'.value sb s = w.value sb s) : w'.contents sb = w.contents sb := by
  funext key
  refine contents_congr_of_slots h h' ?_
  intro s b
  rw [hactive]
  refine and_congr_right ?_
  intro hs
  rw [hkey s hs, hvalue s hs]

/-- Views that differ in one slot with a key store the same map but for that key. -/
theorem contents_insert (h : w.Sound sb P σ) (h' : w'.Sound sb P τ) (hs : w'.Active s)
    (hother : ∀ t, t ≠ s → ((w'.Active t ↔ w.Active t) ∧
      (w.Active t → (w'.keys t).key = (w.keys t).key ∧ w'.value sb t = w.value sb t)))
    (hold : w.Active s → (w.keys s).key = (w'.keys s).key) :
    w'.contents sb = (w.contents sb).insert (w'.keys s).key (w'.value sb s) := by
  funext key
  by_cases hkey : key = (w'.keys s).key
  · rw [hkey, KeyMap.insert_self]
    exact h'.contents_of_active hs
  · rw [KeyMap.insert_of_ne _ _ _ _ hkey]
    refine contents_congr_of_slots h h' ?_
    intro t b
    by_cases hts : t = s
    · subst hts
      exact ⟨fun ht => absurd ht.2.1.symm hkey,
        fun ht => absurd (ht.2.1.symm.trans (hold ht.1)) hkey⟩
    · obtain ⟨hactive, hsame⟩ := hother t hts
      rw [hactive]
      refine and_congr_right ?_
      intro ht
      rw [(hsame ht).1, (hsame ht).2]

/-! ### What does not show -/

theorem contents_setData (hfits : sb.Fits length) (h : w.Sound sb P σ) (hs : w.Loose sb s) (b : Block) :
    (w.setData s b).contents sb = w.contents sb := by
  refine contents_congr h (h.setData hs b) (fun _ => Iff.rfl) (fun _ _ => rfl) ?_
  intro t ht
  refine value_congr hfits h ht ?_ ?_
  · refine if_neg ?_
    rintro rfl
    exact hs.not_active ht
  · intro i u hi hblock
    refine if_neg ?_
    rintro rfl
    exact hs.not_held hi hblock

/-- Another entry with the same key does not show. -/
theorem contents_touch (h : w.Sound sb P σ) (hs : w.Active s) {e : KeyEntry} (he : e.isActive)
    (hkey : e.key = (w.keys s).key) : (w.setKey s e).contents sb = w.contents sb := by
  have hnew : ∀ t, t ≠ s → w.Active t → (w.keys t).key ≠ e.key := fun t hts ht hk =>
    hts (h.unique ht hs (hk.trans hkey))
  refine contents_congr h (h.rekey hs he hnew) ?_ ?_ fun _ _ => rfl
  · intro t
    by_cases hts : t = s
    · subst hts
      exact ⟨fun _ => hs, fun _ => by simp [Active, he]⟩
    · simp [Active, hts]
  · intro t _
    by_cases hts : t = s
    · simp [hts, hkey]
    · simp [hts]

/-! ### What shows -/

theorem contents_activate (hfits : sb.Fits length) (h : w.Sound sb P σ) (hs : w.Loose sb s)
    (hzero : w.data s = .zero) {e : KeyEntry} (he : e.isActive)
    (hnew : ∀ t, w.Active t → (w.keys t).key ≠ e.key) :
    (w.setKey s e).contents sb = (w.contents sb).insert e.key .zero := by
  have hp : w.pointer s = 0 := by rw [pointer, hzero, Volume.pointer_zero]
  have hvalue : (w.setKey s e).value sb s = .zero := by
    cases hd : sb.isDedup with
    | false => rw [value_of_plain hd]; exact hzero
    | true => exact value_of_pointer_eq_zero hd hp
  have hself : (w.setKey s e).keys s = e := if_pos rfl
  have hall := contents_insert h (h.activate hfits hs hp he hnew) (s := s)
    (by rw [Active, hself]; exact he)
    (fun t hts => ⟨by simp [Active, hts], fun _ => ⟨by simp [hts], rfl⟩⟩)
    fun ha => absurd ha hs.not_active
  rwa [hself, hvalue] at hall

theorem contents_freeKey (h : w.Sound sb P σ) (hs : w.Active s) :
    (w.setKey s .free).contents sb = (w.contents sb).erase (w.keys s).key := by
  have hfree : KeyEntry.free.isActive = false := by decide
  have hgone : ¬ (w.setKey s .free).Active s := by simp [Active, hfree]
  funext key
  by_cases hkey : key = (w.keys s).key
  · rw [hkey, KeyMap.erase_self, (h.freeKey hs).contents_eq_none_iff]
    intro t ht
    have hts : t ≠ s := by
      rintro rfl
      exact hgone ht
    simp only [Active, keys_setKey, if_neg hts] at ht ⊢
    exact fun hk => hts (h.unique ht hs hk)
  · rw [KeyMap.erase_of_ne _ _ _ hkey]
    refine contents_congr_of_slots h (h.freeKey hs) ?_
    intro t b
    by_cases hts : t = s
    · subst hts
      exact ⟨fun ht => absurd ht.1 hgone, fun ht => absurd ht.2.1.symm hkey⟩
    · simp only [Active, keys_setKey, if_neg hts]
      exact Iff.rfl

theorem contents_rekey (h : w.Sound sb P σ) (hs : w.Active s) {e : KeyEntry} (he : e.isActive)
    (hnew : w.contents sb e.key = none) :
    (w.setKey s e).contents sb = (w.contents sb).move (w.keys s).key e.key := by
  have hfresh := h.contents_eq_none_iff.1 hnew
  have h' := h.rekey hs he fun t _ ht => hfresh t ht
  have hself : (w.setKey s e).keys s = e := if_pos rfl
  have hactive : (w.setKey s e).Active s := by rw [Active, hself]; exact he
  funext key
  by_cases hkey : key = e.key
  · have hall := h'.contents_of_active hactive
    rw [hself] at hall
    rw [hkey, KeyMap.move_new, h.contents_of_active hs, hall]
    rfl
  · rw [KeyMap.move, if_neg hkey]
    by_cases hk : key = (w.keys s).key
    · rw [if_pos hk, h'.contents_eq_none_iff]
      intro t ht
      by_cases hts : t = s
      · rw [hts, hself]
        exact fun hk => hkey hk.symm
      · simp only [Active, keys_setKey, if_neg hts] at ht ⊢
        exact fun hkt => hts (h.unique ht hs (hkt.trans hk))
    · rw [if_neg hk]
      refine contents_congr_of_slots h h' ?_
      intro t b
      by_cases hts : t = s
      · subst hts
        rw [hself]
        exact ⟨fun ht => absurd ht.2.1.symm hkey, fun ht => absurd ht.2.1.symm hk⟩
      · simp only [Active, keys_setKey, if_neg hts]
        exact Iff.rfl

/-- Replacing the data block of a slot with a key gives that key another value. -/
theorem contents_setValue (hfits : sb.Fits length) (h : w.Sound sb P σ)
    (h' : (w.setData s b).Sound sb P τ) (hs : w.Active s) :
    (w.setData s b).contents sb =
      (w.contents sb).insert (w.keys s).key ((w.setData s b).value sb s) := by
  refine contents_insert h h' hs (fun t hts => ⟨Iff.rfl, fun ht => ⟨rfl, ?_⟩⟩) fun _ => rfl
  refine value_congr hfits h ht (if_neg hts) fun i u hi hblock => if_neg ?_
  rintro rfl
  exact (h.owner hi hblock).2.1 hs

end Sound

end View

end BlockStore
