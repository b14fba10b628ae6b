import BlockStore.Proofs.Sharing

/-!
# The operations on a volume

What creating, storing, deleting and renaming do to the stored map, with or without faults. Each
statement has the three parts of `Volume.Runs`: the maps that a crash on the way can leave, the result,
and the failures. The volume is sound at every write.

What a failure leaves is said for a reliable device only, where the operation fails for a reason of
its own and changes nothing. On any other device it is one of the maps that a crash can leave.

## Main definitions

* `KeyMap.Creating`, `Storing`, `Erasing`, `Moving`: the maps that a crash can leave.
* `View.created`: the view after a key was created.
* `View.Underway`: the entries and the map while a value is stored.
* `Volume.Placed`, `Volume.Declines`: a value was stored, or why it cannot be.

## Main results

* `Volume.runs_create`, `runs_put`, `runs_remove`, `runs_rename`.
-/

namespace BlockStore

namespace KeyMap

/-- The maps that are seen while a key is created. -/
def Creating (M : KeyMap) (key : Key) (M' : KeyMap) : Prop :=
  M' = M ∨ M key = none ∧ M' = M.insert key .zero

/-- The maps that are seen while a block for which `alike` holds is stored. -/
def Storing (M : KeyMap) (key : Key) (alike : Block → Prop) (M' : KeyMap) : Prop :=
  M.Creating key M' ∨ ∃ b, alike b ∧ M' = M.insert key b

/-- The maps that are seen while a key is deleted. -/
def Erasing (M : KeyMap) (key : Key) (M' : KeyMap) : Prop := M' = M ∨ M' = M.erase key

/-- The maps that are seen while a key is renamed. -/
def Moving (M : KeyMap) (old new : Key) (M' : KeyMap) : Prop :=
  M' = M ∨ M old ≠ none ∧ M new = none ∧ M' = M.move old new

end KeyMap

namespace View

variable {sb : Superblock} {length : Nat} {P : Block → Prop} {σ : Nat → Nat} {w : View} {s : Nat}
  {key : Key}

/-- The view after a key was created in a slot. -/
def created (w : View) (s : Nat) (key : Key) (now : Timestamp) : View :=
  (w.setUsed s true).setKey s (.active key now)

/-- While a block is stored in a slot, the entries are as before, and the map is as before or has a value
like the block. -/
def Underway (w : View) (sb : Superblock) (P : Block → Prop) (s : Nat) (b : Block)
    (k : Nat → KeyEntry) (M : KeyMap) : Prop :=
  k = w.keys ∧ (M = w.contents sb ∨
    ∃ b', sb.Alike P b b' ∧ M = (w.contents sb).insert (w.keys s).key b')

namespace Underway

variable {b : Block} {k : Nat → KeyEntry} {M : KeyMap}

theorem of_contents (h : w.Underway sb P s b k M) {B : KeyMap → Prop} (hB : B (w.contents sb))
    (hB' : ∀ b', sb.Alike P b b' → B ((w.contents sb).insert (w.keys s).key b')) : B M := by
  obtain ⟨-, rfl | ⟨b', hb', rfl⟩⟩ := h
  · exact hB
  · exact hB' b' hb'

theorem active {w' : View} (h : w.Underway sb P s b w'.keys M) (hs : w.Active s) : w'.Active s := by
  rw [Active, h.1]
  exact hs

/-- Without the key it is the same map as before. -/
theorem erase_eq (h : w.Underway sb P s b k M) :
    M.erase (k s).key = (w.contents sb).erase (w.keys s).key := by
  obtain ⟨rfl, rfl | ⟨b', -, rfl⟩⟩ := h
  · rfl
  · exact KeyMap.erase_insert_self _ _ _

end Underway

theorem isActive_active (key : Key) (now : Timestamp) : (KeyEntry.active key now).isActive := by
  change (KeyEntry.activeFlag &&& KeyEntry.activeFlag != 0 &&
    KeyEntry.activeFlag &&& KeyEntry.freeFlag == 0) = true
  decide

@[simp] theorem keys_created_self (w : View) (s : Nat) (key : Key) (now : Timestamp) :
    (w.created s key now).keys s = .active key now := if_pos rfl

theorem active_created (w : View) (s : Nat) (key : Key) (now : Timestamp) :
    (w.created s key now).Active s := by
  rw [Active, keys_created_self]
  exact isActive_active key now

/-- But for the key that was created, keys without a block had none before. -/
theorem bare_created {now : Timestamp} {t : Nat} (h : t ≠ s ∧ (w.created s key now).Bare t) : w.Bare t := by
  obtain ⟨hts, hactive, hpointer⟩ := h
  refine ⟨?_, hpointer⟩
  rwa [Active, View.created, keys_setKey, if_neg hts] at hactive

/-- Discarding a slot leaves no other key without a block. -/
theorem bare_discarded {t : Nat} (h : ((w.setKey s .free).reclaimed s).Bare t) : w.Bare t := by
  obtain ⟨hactive, hpointer⟩ := h
  have hts : t ≠ s := by
    rintro rfl
    rw [Active, reclaimed, keys_setUsed, keys_setData, keys_setKey, if_pos rfl] at hactive
    exact absurd hactive (by decide)
  rw [Active, reclaimed, keys_setUsed, keys_setData, keys_setKey, if_neg hts] at hactive
  rw [pointer, data_reclaimed_of_ne hts] at hpointer
  exact ⟨hactive, hpointer⟩

namespace Sound

theorem created (hfits : sb.Fits length) (h : w.Sound sb P σ) (hs : s < sb.slots)
    (hclear : w.used s = false) (hnew : w.contents sb key = none) (now : Timestamp) :
    (w.created s key now).Sound sb P σ := by
  have hp : w.pointer s = 0 := by rw [pointer, h.blank hclear, Volume.pointer_zero]
  exact (h.use s).activate hfits (h.loose_use hs hclear) hp (isActive_active key now)
    (h.contents_eq_none_iff.1 hnew)

theorem contents_created (hfits : sb.Fits length) (h : w.Sound sb P σ) (hs : s < sb.slots)
    (hclear : w.used s = false) (hnew : w.contents sb key = none) (now : Timestamp) :
    (w.created s key now).contents sb = (w.contents sb).insert key .zero :=
  (h.use s).contents_activate hfits (h.loose_use hs hclear) (h.blank hclear)
    (isActive_active key now) (h.contents_eq_none_iff.1 hnew)

theorem discarded (h : w.Sound sb P σ) (hs : w.Active s) :
    ((w.setKey s .free).reclaimed s).Sound sb P (bump σ (w.pointer s)) :=
  (h.freeKey hs).reclaimed (h.loose_freeKey hs)

theorem contents_discarded (hfits : sb.Fits length) (h : w.Sound sb P σ) (hs : w.Active s) :
    ((w.setKey s .free).reclaimed s).contents sb = (w.contents sb).erase (w.keys s).key := by
  rw [(h.freeKey hs).contents_reclaimed hfits (h.loose_freeKey hs), h.contents_freeKey hs]

/-- A key that was created and is discarded again leaves nothing behind. -/
theorem discarded_created (h : w.Sound sb P σ) (hclear : w.used s = false) (key : Key)
    (now : Timestamp) : ((w.created s key now).setKey s .free).reclaimed s = w := by
  have hidle : ¬ w.Active s := fun hs => by
    rw [h.used_of_active hs] at hclear
    cases hclear
  refine View.ext (fun t => ?_) (fun _ => rfl) (fun t => ?_) fun t => ?_
  · by_cases ht : t = s <;> simp [View.reclaimed, View.created, ht, h.vacant hidle]
  · by_cases ht : t = s <;> simp [View.reclaimed, View.created, ht, hclear]
  · by_cases ht : t = s <;> simp [View.reclaimed, View.created, ht, h.blank hclear]

end Sound

end View

namespace Volume

variable {sb : Superblock} {r : Prop} {v u : Volume} {w : View} {free : List Nat}
  {P : Block → Prop} {σ : Nat → Nat} {A : (Nat → KeyEntry) → KeyMap → Prop} {key : Key}

/-- The volume is sound and stores the map, in whatever slots. -/
def Holding (u : Volume) (sb : Superblock) (r : Prop) (P : Block → Prop) (σ : Nat → Nat) (M : KeyMap) :
    Prop := ∃ w free, u.Shows sb r w free ∧ w.Sound sb P σ ∧ w.contents sb = M

theorem Shows.holding (h : v.Shows sb r w free) (hw : w.Sound sb P σ) :
    v.Holding sb r P σ (w.contents sb) := ⟨w, free, h, hw, rfl⟩

theorem runs_create (h : v.Shows sb r w free) (hw : w.Sound sb P σ) (key : Key) (now : Timestamp) :
    Runs sb r (View.Keeps sb P fun _ M => (w.contents sb).Creating key M) (create key now) v
      (fun s u => w.contents sb key = none ∧ ∃ rest, free = s :: rest ∧
        u.Shows sb r (w.created s key now) rest)
      (fun e u => u.Holding sb r P σ (w.contents sb) ∧ (r → u.Shows sb r w free ∧
        (e = .keyExists key ∧ w.contents sb key ≠ none ∨
          e = .noSpace ∧ free = [] ∧ w.contents sb key = none))) := by
  refine ((runs_contains h key).mono (fun _ _ hq => hq)
    fun _ _ he => ⟨he.1.holding hw, fun hr => absurd hr he.2⟩).bind ?_
  rintro found u ⟨rfl, hu⟩
  cases hslot : w.slotOf sb key with
  | some s =>
    simp only [Option.isSome_some, if_true]
    refine .bind (Q := fun _ _ => False)
      (.throw ⟨hu.holding hw, fun _ => ⟨hu, .inl ⟨rfl, ?_⟩⟩⟩) fun _ _ h => h.elim
    rw [ne_eq, View.contents_eq_none_iff, hslot]
    simp
  | none =>
    have hnew : w.contents sb key = none := View.contents_eq_none_iff.2 hslot
    simp only [Option.isSome_none, Bool.false_eq_true, if_false]
    refine ((runs_acquire hu fun s _ _ => ⟨σ, hw.use s, .inl rfl⟩).mono (fun _ _ hq => hq)
      fun e x he => ⟨he.1.holding hw, fun hr => ⟨he.1, .inr ⟨(he.2 hr).1, (he.2 hr).2, hnew⟩⟩⟩).bind ?_
    rintro s x ⟨rest, hfree, hx⟩
    obtain ⟨hs, hclear⟩ := h.mem_free.1 (hfree ▸ List.mem_cons_self)
    have hidle := (hw.loose_use hs hclear).not_active
    refine .get_bind ?_
    rw [hx.keyTable_eq]
    refine ((runs_allocate hx hs ((hw.use s).vacant hidle) key now ⟨σ, hw.created h.fits hs hclear hnew
      now, .inr ⟨hnew, hw.contents_created h.fits hs hclear hnew now⟩⟩).mono (fun _ _ hq => hq)
      fun e y he => ⟨he.1.holding (hw.use s), fun hr => absurd hr he.2⟩).bind fun _ y hy => ?_
    exact .pure ⟨hnew, rest, hfree, hy⟩

/-- Finding the slot of a key, or creating the key. -/
theorem runs_obtain (h : v.Shows sb r w free) (hw : w.Sound sb P σ) (key : Key) (now : Timestamp) :
    Runs sb r (View.Keeps sb P fun _ M => (w.contents sb).Creating key M) (obtain key now) v
      (fun a u => a.2 = false ∧ w.Active a.1 ∧ (w.keys a.1).key = key ∧ u.Shows sb r w free ∨
        a.2 = true ∧ w.contents sb key = none ∧ ∃ rest, free = a.1 :: rest ∧
          u.Shows sb r (w.created a.1 key now) rest)
      (fun e u => u.Holding sb r P σ (w.contents sb) ∧
        (r → u.Shows sb r w free ∧ e = .noSpace ∧ free = [] ∧ w.contents sb key = none)) := by
  have hlook : Runs sb r (View.Keeps sb P fun _ M => (w.contents sb).Creating key M)
      (look fun v => .ok (v.lookup key)) v (fun a u => a = v.lookup key ∧ u.Shows sb r w free)
      (fun _ _ => False) := by
    refine .look (fun a ha => ?_) fun e he => by cases he
    cases ha
    exact ⟨rfl, h.tick⟩
  refine (hlook.mono (fun _ _ hq => hq) fun _ _ he => he.elim).bind ?_
  rintro _ u ⟨rfl, hu⟩
  rcases h.lookup_cases key with ⟨s, hok, hs⟩ | ⟨hnone, hs⟩ | ⟨⟨e, herror⟩, hr⟩
  · rw [hok]
    obtain ⟨hactive, hkey⟩ := hw.slotOf_eq_some_iff.1 hs
    exact .pure (.inl ⟨rfl, hactive, hkey, hu⟩)
  · rw [hnone]
    have hnew : w.contents sb key = none := View.contents_eq_none_iff.2 hs
    refine ((runs_create hu hw key now).mono (fun _ _ hq => hq) fun e x he => ⟨he.1, fun hr => ?_⟩).bind
      fun s x hx => .pure (.inr ⟨rfl, hx⟩)
    obtain ⟨hx, ⟨-, hsome⟩ | ⟨he, hfree, -⟩⟩ := he.2 hr
    · exact absurd hnew hsome
    · exact ⟨hx, he, hfree, hnew⟩
  · rw [herror]
    exact .throw ⟨hu.holding hw, fun hr' => absurd hr' hr⟩

/-- The slots that storing a value takes while it lasts: one for a new key, and on a deduplicating
volume one for the candidate block. -/
def slotsNeeded (dedup : Bool) (M : KeyMap) (key : Key) : Nat :=
  (if M key = none then 1 else 0) + if dedup then 1 else 0

/-- There were slots enough, and the key has a value like `b`. On a deduplicating volume every key with a
block still has one. -/
def Placed (u : Volume) (sb : Superblock) (r : Prop) (P : Block → Prop) (σ : Nat → Nat) (w : View)
    (free : List Nat) (key : Key) (b : Block) : Prop :=
  slotsNeeded sb.isDedup (w.contents sb) key ≤ free.length ∧
    ∃ w' free' τ b', u.Shows sb r w' free' ∧ w'.Sound sb P τ ∧ (∀ x, τ x ≤ σ x) ∧ sb.Alike P b b' ∧
      w'.contents sb = (w.contents sb).insert key b' ∧ (sb.isDedup → ∀ {t}, w'.Bare t → w.Bare t)

/-- Slots are lacking for the value of the key, or the dedup table refuses it. -/
def Declines (sb : Superblock) (w : View) (free : List Nat) (key : Key) (b : Block) (e : StoreError) :
    Prop :=
  free.length < slotsNeeded sb.isDedup (w.contents sb) key ∧ e = .noSpace ∨
    slotsNeeded sb.isDedup (w.contents sb) key ≤ free.length ∧ sb.isDedup ∧ w.Refuses sb b e

/-- Storing a value, when nothing is asked of the maps on the way. If it fails, the slot still has its
entry. -/
theorem runs_store_underway (h : v.Shows sb r w free) (hw : w.Sound sb P σ) {s : Nat}
    (hs : w.Active s) {b : Block} (hP : P b) :
    Runs sb r (View.Keeps sb P (w.Underway sb P s b)) (store s b) v
      (fun _ u => (sb.isDedup → free ≠ []) ∧ ∃ w' free' τ b', u.Shows sb r w' free' ∧
        w'.Sound sb P τ ∧ (∀ x, τ x ≤ σ x) ∧ w'.keys = w.keys ∧ sb.Alike P b b' ∧
        w'.contents sb = (w.contents sb).insert (w.keys s).key b' ∧ (sb.isDedup → w.Settles s w'))
      (fun e u => (r → sb.isDedup ∧ u.Shows sb r w free ∧
          (e = .noSpace ∧ free = [] ∨ free ≠ [] ∧ w.Refuses sb b e)) ∧
        Passes sb r (View.Keeps sb P (w.Underway sb P s b)) u) :=
  (Runs.passes (h.passes ⟨σ, hw, rfl, .inl rfl⟩) (runs_store h hw hs hP ⟨rfl, .inl rfl⟩
    fun b' hb' => ⟨rfl, .inr ⟨b', hb', rfl⟩⟩)).mono (fun _ _ hq => hq.1) fun _ _ he => he

/-- The part of `put` behind the slot: the value is stored, a new key is discarded again if that fails,
and the entry is touched. -/
def storeOrDiscard (s : Nat) (isNew : Bool) (b : Block) (stored : Timestamp) : VolumeM Nat := do
  try store s b
  catch e => do
    if isNew then
      try discardSlot s
      catch _ => pure ()
    throw e
  let keys := (← get).keyTable
  onDevice (keys.touch s stored)
  return s

theorem put_eq (key : Key) (data : ByteArray) (created stored : Timestamp) :
    put key data created stored =
      if blockSize < data.size then throw (.valueTooLarge data.size)
      else obtain key created >>= fun a => storeOrDiscard a.1 a.2 (.ofBytes data) stored := by
  funext v
  rw [put]
  split <;> rfl

theorem runs_storeOrDiscard (h : v.Shows sb r w free) (hw : w.Sound sb P σ) {s : Nat}
    (hs : w.Active s) {b : Block} (hP : P b) (stored : Timestamp) (isNew : Bool)
    {B : KeyMap → Prop} (hB : B (w.contents sb))
    (hB' : ∀ b', sb.Alike P b b' → B ((w.contents sb).insert (w.keys s).key b'))
    (hgone : isNew → B ((w.contents sb).erase (w.keys s).key)) :
    Runs sb r (View.Keeps sb P fun _ M => B M) (storeOrDiscard s isNew b stored) v
      (fun _ u => (sb.isDedup → free ≠ []) ∧ ∃ w' free' τ b', u.Shows sb r w' free' ∧
        w'.Sound sb P τ ∧ (∀ x, τ x ≤ σ x) ∧ sb.Alike P b b' ∧
        w'.contents sb = (w.contents sb).insert (w.keys s).key b' ∧
        (sb.isDedup → ∀ {t}, w'.Bare t → t ≠ s ∧ w.Bare t))
      (fun e u => r → sb.isDedup ∧ (e = .noSpace ∧ free = [] ∨ free ≠ [] ∧ w.Refuses sb b e) ∧
        u.Shows sb r (if isNew then (w.setKey s .free).reclaimed s else w)
          (if isNew then s :: free else free)) := by
  have hstore := (runs_store_underway h hw hs hP).weaken fun w' hw' =>
    View.Keeps.mono (B := fun _ M => B M) (fun k M hk => hk.of_contents hB hB') hw'
  refine ((hstore.mono (fun _ _ hq => hq) fun _ _ he => he).tryCatch ?_).bind ?_
  · rintro e u ⟨he, w', free', hu, τ, hw', hunder⟩
    have hs' := hunder.active hs
    have herase := hunder.erase_eq
    cases isNew with
    | false =>
      refine .throw ?_
      intro hr
      obtain ⟨hd, hx, hwhy⟩ := he hr
      exact ⟨hd, hwhy, hx⟩
    | true =>
      have hgone := hgone rfl
      rw [← herase] at hgone
      have hdiscard := runs_discardSlot (A := fun _ M => B M) hu hw' hs' hgone
      refine .bind (Q := fun _ y => r →
        y.Shows sb r ((w'.setKey s .free).reclaimed s) (s :: free')) (.tryCatch
        (hdiscard.mono (fun _ _ hq _ => hq) fun _ _ he => he)
        fun _ _ hr => .pure fun hr' => absurd hr' hr) fun _ y hy => .throw fun hr => ?_
      obtain ⟨hd, hx, hwhy⟩ := he hr
      obtain rfl : w = w' := hx.view.symm.trans hu.view
      obtain rfl : free = free' := hx.free.symm.trans hu.free
      exact ⟨hd, hwhy, hy hr⟩
  · rintro _ u ⟨hroom, w', free', τ, b', hu, hw', hτ, hkeys, halike, hmap, hpointers⟩
    have hs' : w'.Active s := by
      rw [View.Active, hkeys]
      exact hs
    have hentry : ({ w'.keys s with timestamp := stored } : KeyEntry).isActive := hs'
    have hsound := hw'.rekey hs' hentry fun t hts ht hk => hts (hw'.unique ht hs' hk)
    have hmap' := (hw'.contents_touch hs' hentry rfl).trans hmap
    refine .get_bind ?_
    rw [hu.keyTable_eq]
    refine ((runs_touch hu (hw'.active_lt hs') hs' stored
      ⟨τ, hsound, by rw [hmap']; exact hB' b' halike⟩).mono (fun _ _ hq => hq)
      fun _ _ he hr => absurd hr he.2).bind fun _ x hx => ?_
    refine .pure ⟨hroom, _, free', τ, b', hx, hsound, hτ, halike, hmap', fun hd {t} ht => ?_⟩
    refine (hpointers hd).of_bare hkeys ⟨?_, ht.2⟩
    by_cases hts : t = s
    · rw [hts]
      exact hs'
    · have hactive := ht.1
      rwa [View.Active, View.keys_setKey, if_neg hts] at hactive

/-- `put` behind the slot of a key that is there. -/
theorem runs_put_known (h : v.Shows sb r w free) (hw : w.Sound sb P σ) {s : Nat} (hs : w.Active s)
    (hkey : (w.keys s).key = key) {b : Block} (hP : P b) (stored : Timestamp) :
    Runs sb r (View.Keeps sb P fun _ M => (w.contents sb).Storing key (sb.Alike P b) M)
      (storeOrDiscard s false b stored) v (fun _ u => u.Placed sb r P σ w free key b)
      (fun e u => r → u.Shows sb r w free ∧ Declines sb w free key b e) := by
  have hold : w.contents sb key ≠ none := by
    rw [← hkey, hw.contents_of_active hs]
    exact Option.some_ne_none _
  have hneed : slotsNeeded sb.isDedup (w.contents sb) key = if sb.isDedup then 1 else 0 := by
    rw [slotsNeeded, if_neg hold, Nat.zero_add]
  refine (runs_storeOrDiscard h hw hs hP stored false (B := fun M =>
    (w.contents sb).Storing key (sb.Alike P b) M) (.inl (.inl rfl))
    (fun b' hb' => .inr ⟨b', hb', by rw [hkey]⟩) fun h => by cases h).mono ?_ ?_
  · rintro a x ⟨hroom, w', free', τ, b', hx, hw', hτ, halike, hmap, hbare⟩
    refine ⟨?_, w', free', τ, b', hx, hw', hτ, halike, by rw [hmap, hkey], fun hd _ ht => (hbare hd ht).2⟩
    rw [hneed]
    split
    · rename_i hd
      exact List.length_pos_iff.2 (hroom hd)
    · exact Nat.zero_le _
  · intro e x he hr
    obtain ⟨hd, hwhy, hx⟩ := he hr
    refine ⟨hx, ?_⟩
    rw [Declines, hneed, if_pos hd]
    rcases hwhy with ⟨rfl, rfl⟩ | ⟨hne, hrefuse⟩
    · exact .inl ⟨Nat.one_pos, rfl⟩
    · exact .inr ⟨List.length_pos_iff.2 hne, hd, hrefuse⟩

/-- `put` behind the slot of a key that it has just created. -/
theorem runs_put_new {s : Nat} {created : Timestamp} (h : v.Shows sb r (w.created s key created) free)
    (hw : w.Sound sb P σ) (hs : s < sb.slots) (hclear : w.used s = false)
    (hnew : w.contents sb key = none) {b : Block} (hP : P b) (stored : Timestamp) :
    Runs sb r (View.Keeps sb P fun _ M => (w.contents sb).Storing key (sb.Alike P b) M)
      (storeOrDiscard s true b stored) v (fun _ u => u.Placed sb r P σ w (s :: free) key b)
      (fun e u => r → u.Shows sb r w (s :: free) ∧ Declines sb w (s :: free) key b e) := by
  have hcreated := hw.created h.fits hs hclear hnew created
  have hmap := hw.contents_created h.fits hs hclear hnew created
  have hkey : ((w.created s key created).keys s).key = key := by
    rw [View.keys_created_self]
    rfl
  have hneed : slotsNeeded sb.isDedup (w.contents sb) key = 1 + if sb.isDedup then 1 else 0 := by
    rw [slotsNeeded, if_pos hnew]
  have herase : ((w.created s key created).contents sb).erase key = w.contents sb := by
    rw [hmap, KeyMap.erase_insert _ _ _ hnew]
  refine (runs_storeOrDiscard h hcreated (View.active_created w s key created) hP stored
    true (B := fun M => (w.contents sb).Storing key (sb.Alike P b) M)
    (.inl (.inr ⟨hnew, hmap⟩)) (fun b' hb' => .inr ⟨b', hb', ?_⟩)
    fun _ => .inl (.inl (by rw [hkey, herase]))).mono ?_ ?_
  · rw [hkey, hmap, KeyMap.insert_insert]
  · rintro a x ⟨hroom, w', free', τ, b', hx, hw', hτ, halike, hmap', hbare⟩
    refine ⟨?_, w', free', τ, b', hx, hw', hτ, halike, ?_, fun hd _ ht => View.bare_created (hbare hd ht)⟩
    · rw [hneed, List.length_cons]
      split
      · rename_i hd
        have := List.length_pos_iff.2 (hroom hd)
        omega
      · omega
    · rw [hmap', hkey, hmap, KeyMap.insert_insert]
  · intro e x he hr
    obtain ⟨hd, hwhy, hx⟩ := he hr
    rw [if_pos rfl, if_pos rfl, hw.discarded_created hclear key created] at hx
    refine ⟨hx, ?_⟩
    rw [Declines, hneed, List.length_cons, if_pos hd]
    rcases hwhy with ⟨rfl, rfl⟩ | ⟨hne, hrefuse⟩
    · exact .inl ⟨by simp, rfl⟩
    · have := List.length_pos_iff.2 hne
      exact .inr ⟨by omega, hd, hrefuse⟩

theorem runs_put (h : v.Shows sb r w free) (hw : w.Sound sb P σ) (key : Key) (data : ByteArray)
    (hP : data.size ≤ blockSize → P (.ofBytes data)) (created stored : Timestamp) :
    Runs sb r (View.Keeps sb P fun _ M =>
        (w.contents sb).Storing key (sb.Alike P (.ofBytes data)) M) (put key data created stored) v
      (fun _ u => data.size ≤ blockSize ∧ u.Placed sb r P σ w free key (.ofBytes data))
      (fun e u => r → u.Shows sb r w free ∧
        (blockSize < data.size ∧ e = .valueTooLarge data.size ∨
          data.size ≤ blockSize ∧ free.length < slotsNeeded sb.isDedup (w.contents sb) key ∧ e = .noSpace ∨
          data.size ≤ blockSize ∧ slotsNeeded sb.isDedup (w.contents sb) key ≤ free.length ∧ sb.isDedup ∧
            w.Refuses sb (.ofBytes data) e)) := by
  rw [put_eq]
  by_cases hsize : blockSize < data.size
  · rw [if_pos hsize]
    exact .throw fun _ => ⟨h, .inl ⟨hsize, rfl⟩⟩
  rw [if_neg hsize]
  have hle : data.size ≤ blockSize := Nat.le_of_not_lt hsize
  refine (((runs_obtain h hw key created).weaken fun w' hw' => View.Keeps.mono
    (fun k M hM => Or.inl hM) hw').mono (fun _ _ hq => hq) fun e u he hr => ?_).bind ?_
  · obtain ⟨hu, rfl, rfl, hnew⟩ := he.2 hr
    refine ⟨hu, .inr (.inl ⟨hle, ?_, rfl⟩)⟩
    rw [slotsNeeded, if_pos hnew, List.length_nil]
    omega
  rintro ⟨s, isNew⟩ u (⟨rfl, hs, hkey, hu⟩ | ⟨rfl, hnew, rest, rfl, hu⟩)
  · exact (runs_put_known hu hw hs hkey (hP hle) stored).mono (fun _ _ hq => ⟨hle, hq⟩)
      fun _ _ he hr => ⟨(he hr).1, .inr ((he hr).2.imp (And.intro hle) (And.intro hle))⟩
  · obtain ⟨hs, hclear⟩ := h.mem_free.1 List.mem_cons_self
    exact (runs_put_new hu hw hs hclear hnew (hP hle) stored).mono (fun _ _ hq => ⟨hle, hq⟩)
      fun _ _ he hr => ⟨(he hr).1, .inr ((he hr).2.imp (And.intro hle) (And.intro hle))⟩

theorem runs_remove (h : v.Shows sb r w free) (hw : w.Sound sb P σ) (key : Key) :
    Runs sb r (View.Keeps sb P fun _ M => (w.contents sb).Erasing key M) (remove key) v
      (fun _ u => w.contents sb key ≠ none ∧ ∃ w' free', u.Shows sb r w' free' ∧
        w'.Sound sb P σ ∧ w'.contents sb = (w.contents sb).erase key ∧ ∀ {t}, w'.Bare t → w.Bare t)
      (fun e u => r → u.Shows sb r w free ∧ e = .notFound (.key key) ∧
        w.contents sb key = none) := by
  refine ((runs_lookup h key).mono (fun _ _ hq => hq) fun e u he hr => ?_).bind ?_
  · obtain ⟨hu, ⟨he, hslot⟩ | hr'⟩ := he
    · exact ⟨hu, he, View.contents_eq_none_iff.2 hslot⟩
    · exact absurd hr hr'
  rintro s u ⟨hslot, hu⟩
  obtain ⟨hs, hkey⟩ := hw.slotOf_eq_some_iff.1 hslot
  have hold : w.contents sb key ≠ none := by
    rw [← hkey, hw.contents_of_active hs]
    exact Option.some_ne_none _
  have hgone := hw.discarded hs
  have hmap : ((w.setKey s .free).reclaimed s).contents sb = (w.contents sb).erase key := by
    rw [hw.contents_discarded h.fits hs, hkey]
  have hdiscard {x : Volume} (hx : x.Shows sb r w free) :=
    runs_discardSlot (A := fun _ M => (w.contents sb).Erasing key M) hx hw hs (.inr (by rw [hkey]))
  refine .get_bind ?_
  rw [hu.dedupTable_eq]
  cases hd : sb.isDedup with
  | false =>
    refine (hdiscard hu).mono (fun _ x hx => ⟨hold, _, _, hx, ?_, hmap, View.bare_discarded⟩)
      fun _ _ he hr => absurd hr he
    exact hgone.congr fun i hi => absurd hi (hgone.not_held hd)
  | true =>
    refine ((runs_readPointer hu (hw.active_lt hs)).mono (fun _ _ hq => hq)
      fun _ _ he hr => absurd hr he.2).bind ?_
    rintro _ x ⟨rfl, hx⟩
    refine ((hdiscard hx).mono (fun _ _ hq => hq) fun _ _ he hr => absurd hr he).bind ?_
    intro _ y hy
    by_cases hp : w.pointer s = 0
    · rw [if_neg (not_not_intro hp)]
      refine .pure ⟨hold, _, _, hy, hgone.congr fun i hi => ?_, hmap, View.bare_discarded⟩
      rw [hp]
      exact View.bump_of_ne _ (View.block_ne_zero h.fits hgone hi)
    · rw [if_pos hp]
      obtain ⟨j, hj, hjs⟩ := hw.backed hd hs hp
      rw [← hjs] at hgone ⊢
      refine (runs_dropShared (A := fun _ M => (w.contents sb).Erasing key M) hy hgone hj
        (.inr hmap)).mono ?_ fun _ _ he hr => absurd hr he
      rintro _ z ⟨w', free', hz, hw', hkeys, hmap', hdata⟩
      refine ⟨hold, w', free', hz, hw', hmap'.trans hmap, fun {t} ht => ?_⟩
      obtain ⟨hactive, hpointer⟩ := ht
      rw [View.Active, hkeys] at hactive
      rw [View.pointer, hdata hactive] at hpointer
      exact View.bare_discarded ⟨hactive, hpointer⟩

theorem runs_rename (h : v.Shows sb r w free) (hw : w.Sound sb P σ) (old new : Key) :
    Runs sb r (View.Keeps sb P fun _ M => (w.contents sb).Moving old new M) (rename old new) v
      (fun _ u => w.contents sb old ≠ none ∧ (old ≠ new → w.contents sb new = none) ∧
        ∃ w', u.Shows sb r w' free ∧ w'.Sound sb P σ ∧ w'.contents sb =
          (if old = new then w.contents sb else (w.contents sb).move old new) ∧
          ∀ {t}, w'.Bare t → w.Bare t)
      (fun e u => r → u.Shows sb r w free ∧
        (e = .notFound (.key old) ∧ w.contents sb old = none ∨
          e = .keyExists new ∧ old ≠ new ∧ w.contents sb old ≠ none ∧ w.contents sb new ≠ none)) := by
  refine ((runs_lookup h old).mono (fun _ _ hq => hq) fun e u he hr => ?_).bind ?_
  · obtain ⟨hu, ⟨he, hslot⟩ | hr'⟩ := he
    · exact ⟨hu, .inl ⟨he, View.contents_eq_none_iff.2 hslot⟩⟩
    · exact absurd hr hr'
  rintro s u ⟨hslot, hu⟩
  obtain ⟨hs, hkey⟩ := hw.slotOf_eq_some_iff.1 hslot
  have hold : w.contents sb old ≠ none := by
    rw [← hkey, hw.contents_of_active hs]
    exact Option.some_ne_none _
  by_cases hne : old = new
  · rw [if_neg (not_not_intro hne)]
    exact .pure ⟨hold, fun h => absurd hne h, w, hu, hw, by rw [if_pos hne], fun ht => ht⟩
  rw [if_pos hne]
  refine ((runs_contains hu new).mono (fun _ _ hq => hq) fun _ _ he hr => absurd hr he.2).bind ?_
  rintro found x ⟨rfl, hx⟩
  cases hfound : w.slotOf sb new with
  | some t =>
    simp only [Option.isSome_some, if_true]
    refine .bind (Q := fun _ _ => False) (.throw fun _ => ⟨hx, .inr ⟨rfl, hne, hold, ?_⟩⟩)
      fun _ _ h => h.elim
    rw [ne_eq, View.contents_eq_none_iff, hfound]
    simp
  | none =>
    have hnew : w.contents sb new = none := View.contents_eq_none_iff.2 hfound
    have hentry : ({ w.keys s with key := new } : KeyEntry).isActive := hs
    have hsound := hw.rekey hs hentry fun t _ ht => hw.contents_eq_none_iff.1 hnew t ht
    have hmap : (w.setKey s { w.keys s with key := new }).contents sb =
        (w.contents sb).move old new := by
      rw [hw.contents_rekey hs hentry hnew, hkey]
    simp only [Option.isSome_none, Bool.false_eq_true, if_false]
    refine .get_bind ?_
    rw [hx.keyTable_eq]
    refine (runs_renameKey hx (hw.active_lt hs) hs new
      ⟨σ, hsound, .inr ⟨hold, hnew, hmap⟩⟩).mono (fun _ y hy => ?_) fun _ _ he hr => absurd hr he.2
    refine ⟨hold, fun _ => hnew, _, hy, hsound, by rw [hmap, if_neg hne], fun {t} ht => ⟨?_, ht.2⟩⟩
    by_cases hts : t = s
    · rw [hts]
      exact hs
    · have hactive := ht.1
      rwa [View.Active, View.keys_setKey, if_neg hts] at hactive

end Volume

end BlockStore
