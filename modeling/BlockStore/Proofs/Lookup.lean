import BlockStore.Proofs.Primitive
import BlockStore.Proofs.Scan

/-!
# What the scans of a volume find

The queries scan one of the two tables. On a device that may fail a scan sees a part of the table and
then an error, and it never takes what it has not seen for absent. `Reads` is that relation between
a list and what a scan got to see of it; everything that consumes a scan is then a statement about the
list.

## Main definitions

* `Reads`: a list, and what a device that is reliable if `r` lets through of it.
* `View.slotOf`: the lowest active slot with a key.
* `Superblock.keyEntries`, `Superblock.sharedEntries`: the two tables of a view as lists.

## Main results

* `Volume.Shows.lookup_cases`: the slot of a key.
* `Volume.Shows.locate_cases`: the dedup entry of a content or of a block.
* `Volume.Shows.reads_entries`, `reads_shared`: the two tables in full.
-/

namespace BlockStore

/-- What a scan of the items `xs` gets to see: the items in order, up to an error of the device, of
which there is none if `r`. What comes after an error is not looked at. -/
inductive Reads (r : Prop) {α : Type} : List α → List (Except StoreError α) → Prop where
  | nil : Reads r [] []
  | ok {xs : List α} {ys : List (Except StoreError α)} (x : α) (h : Reads r xs ys) :
      Reads r (x :: xs) (.ok x :: ys)
  | fault {xs : List α} {ys : List (Except StoreError α)} (e : DeviceError) (hr : ¬ r) :
      Reads r xs (.error (.device e) :: ys)

namespace Reads

variable {r : Prop} {α : Type} {xs xs' : List α} {ys ys' : List (Except StoreError α)}

theorem map_ok (r : Prop) (xs : List α) : Reads r xs (xs.map .ok) := by
  induction xs with
  | nil => exact .nil
  | cons x _ ih => exact .ok x ih

theorem append (h : Reads r xs ys) (h' : Reads r xs' ys') : Reads r (xs ++ xs') (ys ++ ys') := by
  induction h with
  | nil => exact h'
  | ok x _ ih => exact .ok x ih
  | fault e hr => exact .fault e hr

theorem flatMap {β : Type} {f : β → List α} {g : β → List (Except StoreError α)} {l : List β}
    (h : ∀ b ∈ l, Reads r (f b) (g b)) : Reads r (l.flatMap f) (l.flatMap g) := by
  induction l with
  | nil => exact .nil
  | cons b l ih =>
    rw [List.flatMap_cons, List.flatMap_cons]
    exact (h b List.mem_cons_self).append (ih fun b hb => h b (List.mem_cons_of_mem _ hb))

theorem collect_eq (h : Reads r xs ys) :
    collect ys = .ok xs ∨ (∃ e, collect ys = .error (.device e)) ∧ ¬ r := by
  induction h with
  | nil => exact .inl rfl
  | ok x _ ih =>
    rcases ih with hok | ⟨⟨e, he⟩, hr⟩
    · left
      rw [collect, hok]
      rfl
    · right
      exact ⟨⟨e, by rw [collect, he]; rfl⟩, hr⟩
  | fault e hr => exact .inr ⟨⟨e, rfl⟩, hr⟩

/-- Scanning for a dedup entry goes as if everything could be seen, or fails with the device. -/
theorem locateIn_eq {xs : List (Nat × DedupEntry)} {ys : List (Except StoreError (Nat × DedupEntry))}
    (h : Reads r xs ys) (c : Criterion) (free : Option Nat) :
    DedupTable.locateIn c ys free = DedupTable.locateIn c (xs.map .ok) free ∨
      (∃ e, DedupTable.locateIn c ys free = .error (.device e)) ∧ ¬ r := by
  induction h generalizing free with
  | nil => exact .inl rfl
  | ok x _ ih =>
    rw [List.map_cons, DedupTable.locateIn, DedupTable.locateIn]
    split
    · exact .inl rfl
    · exact ih _
  | fault e hr => exact .inr ⟨⟨e, rfl⟩, hr⟩

end Reads

/-- The records of one block, as a part of the table that they are in. -/
theorem Reads.recordsIn {β : Type} {f : Record → β} {g : Nat → β} {r : Prop} {b : Block} {k n : Nat}
    (h : ∀ i < n, f (b.record i) = g (k * recordsPerBlock + i)) :
    Reads r ((List.range' (k * recordsPerBlock) n).map fun i => (i, g i))
      ((RecordTable.recordsIn b k n).map fun (i, rec) => .ok (i, f rec)) := by
  have hlist : (List.range' (k * recordsPerBlock) n).map (fun i => (i, g i)) =
      (RecordTable.recordsIn b k n).map fun (i, rec) => (i, f rec) := by
    rw [RecordTable.recordsIn, List.map_map, List.range'_eq_map_range, List.map_map]
    refine List.map_congr_left ?_
    intro i hi
    simp only [Function.comp_apply, h i (List.mem_range.1 hi)]
  have hall := Reads.map_ok r ((RecordTable.recordsIn b k n).map fun (i, rec) => (i, f rec))
  rw [List.map_map] at hall
  rw [hlist]
  exact hall

/-! ### The key table -/

/-- Slots that are read one after the other. -/
theorem Reads.readSlots {r : Prop} {t : KeyTable} {d : Device} {w : View} {l : List Nat}
    (h : ∀ s ∈ l, t.entry d s = .ok (w.keys s) ∨ (∃ e, t.entry d s = .error (.device e)) ∧ ¬ r) :
    Reads r (l.map fun s => (s, w.keys s)) (t.readSlots d l) := by
  induction l with
  | nil => exact .nil
  | cons s l ih =>
    rw [List.map_cons, KeyTable.readSlots]
    rcases h s List.mem_cons_self with hok | ⟨⟨e, herror⟩, hr⟩
    · rw [hok]
      exact .ok _ (ih fun s' hs' => h s' (List.mem_cons_of_mem _ hs'))
    · rw [herror]
      exact .fault e hr

/-- The slot holds the key. -/
def View.Holds (w : View) (key : Key) (s : Nat) : Prop := (w.keys s).isActive ∧ (w.keys s).key = key

instance (w : View) (key : Key) (s : Nat) : Decidable (w.Holds key s) :=
  inferInstanceAs (Decidable (_ ∧ _))

/-- The lowest slot that holds a key. -/
def View.slotOf (w : View) (sb : Superblock) (key : Key) : Option Nat :=
  (List.range sb.slots).find? fun s => decide (w.Holds key s)

/-- The key entries of a view, by slot. -/
def Superblock.keyEntries (sb : Superblock) (w : View) : List (Nat × KeyEntry) :=
  (List.range sb.slots).map fun s => (s, w.keys s)

/-- The dedup entries of a view, by index. -/
def Superblock.sharedEntries (sb : Superblock) (w : View) : List (Nat × DedupEntry) :=
  (List.range sb.dedupCapacity).map fun i => (i, w.shared i)

/-- The first slot of a scan that holds a key is the first one of the table, as long as the scan sees
it. -/
theorem KeyTable.findKey_activeOf {r : Prop} {w : View} {l : List Nat}
    {ys : List (Except StoreError (Nat × KeyEntry))}
    (h : Reads r (l.map fun s => (s, w.keys s)) ys) (key : Key) :
    (∃ s, findKey key (activeOf ys) = .ok s ∧ l.find? (fun s => decide (w.Holds key s)) = some s) ∨
      (findKey key (activeOf ys) = .error (.notFound (.key key)) ∧
        l.find? (fun s => decide (w.Holds key s)) = none) ∨
      (∃ e, findKey key (activeOf ys) = .error (.device e)) ∧ ¬ r := by
  induction l generalizing ys with
  | nil =>
    cases h with
    | nil => exact .inr (.inl ⟨rfl, rfl⟩)
    | fault e hr => exact .inr (.inr ⟨⟨e, rfl⟩, hr⟩)
  | cons s l ih =>
    cases h with
    | ok _ h =>
      have hrest := ih h
      by_cases hactive : (w.keys s).isActive
      · rw [activeOf, if_pos hactive, findKey]
        by_cases hkey : (w.keys s).key = key
        · left
          exact ⟨s, if_pos hkey, List.find?_cons_of_pos (by simp [View.Holds, hactive, hkey])⟩
        · rw [if_neg hkey, List.find?_cons_of_neg (by simp [View.Holds, hkey])]
          exact hrest
      · rw [activeOf, if_neg hactive, List.find?_cons_of_neg (by simp [View.Holds, hactive])]
        exact hrest
    | fault e hr => exact .inr (.inr ⟨⟨e, rfl⟩, hr⟩)

namespace Volume

variable {sb : Superblock} {r : Prop} {C : View → Prop} {v u : Volume} {w : View} {free : List Nat}

/-- The entry of a slot is read as it is, unless the device is not reliable. -/
theorem Shows.entry_eq (h : v.Shows sb r w free) {s : Nat} (hs : s < sb.slots) :
    KeyTable.entry ⟨sb.keysStart, sb.slots⟩ v.device s = .ok (w.keys s) ∨
      (∃ e, KeyTable.entry ⟨sb.keysStart, sb.slots⟩ v.device s = .error (.device e)) ∧ ¬ r := by
  have h1 := h.fits.keys_le_dedupStart hs
  have h2 := h.fits.dedupStart_le_dataStart
  have hlt : sb.keysStart + s / recordsPerBlock < sb.dataStart + sb.slots := by omega
  rw [KeyTable.entry_of_lt hs]
  rcases h.readBlock_eq hlt with hok | ⟨⟨e, herror⟩, hr⟩
  · left
    rw [hok, ← h.view]
    simp [Superblock.view, hs, Except.map]
  · right
    rw [herror]
    exact ⟨⟨e, rfl⟩, hr⟩

theorem Shows.reads_entries (h : v.Shows sb r w free) :
    Reads r (sb.keyEntries w) (v.keyTable.entries v.device) := by
  rw [h.keyTable_eq, KeyTable.entries_eq_readSlots]
  exact Reads.readSlots fun s hs => h.entry_eq (List.mem_range.1 hs)

/-- Looking a key up finds its lowest slot; it is reported absent only when it is. -/
theorem Shows.lookup_cases (h : v.Shows sb r w free) (key : Key) :
    (∃ s, v.lookup key = .ok s ∧ w.slotOf sb key = some s) ∨
      (v.lookup key = .error (.notFound (.key key)) ∧ w.slotOf sb key = none) ∨
      (∃ e, v.lookup key = .error (.device e)) ∧ ¬ r :=
  KeyTable.findKey_activeOf h.reads_entries key

end Volume

/-! ### The dedup table -/

theorem flatMap_range'_mul (n m : Nat) :
    (List.range n).flatMap (fun k => List.range' (k * m) m) = List.range (n * m) := by
  induction n with
  | zero => simp
  | succ n ih =>
    rw [List.range_succ, List.flatMap_append, ih, List.flatMap_singleton, Nat.succ_mul,
      List.range_eq_range', List.range_eq_range']
    have := @List.range'_append 0 (n * m) m 1
    simpa using this

namespace DedupTable

variable {t : DedupTable} {d : Device} {r : Prop}

/-- The entry with an index on an image. -/
def entryAt (t : DedupTable) (im : Image) (i : Nat) : DedupEntry :=
  .ofRecord ((im.block (t.start + i / recordsPerBlock)).record (i % recordsPerBlock))

/-- The table, as a scan sees it of which every block is read, or the device has failed. -/
theorem reads_entries (h : ∀ k < t.blocks,
    d.readBlock (t.start + k) = .ok (d.image.block (t.start + k)) ∨
      (∃ e, d.readBlock (t.start + k) = .error (.device e)) ∧ ¬ r) :
    Reads r ((List.range t.capacity).map fun i => (i, t.entryAt d.image i)) (t.entries d) := by
  rw [capacity, ← flatMap_range'_mul, List.map_flatMap]
  refine Reads.flatMap fun k hk => ?_
  rw [entriesIn]
  rcases h k (List.mem_range.1 hk) with hok | ⟨⟨e, herror⟩, hr⟩
  · rw [hok]
    refine Reads.recordsIn ?_
    intro i hi
    obtain ⟨hdiv, hmod⟩ := RecordTable.split_index hi k
    rw [entryAt, hdiv, hmod]
  · rw [herror]
    exact .fault e hr

/-- Scanning a list of entries in full: an entry that is looked for is found, or else there is none,
and then the free entry that is handed out is one of the list, unless all are active. -/
theorem locateIn_map_ok (c : Criterion) (f : Nat → DedupEntry) (l : List Nat)
    (free : Option Nat) :
    (∃ i ∈ l, c.accepts (f i) ∧ ∃ ff, locateIn c ((l.map fun i => (i, f i)).map .ok) free =
        .ok ⟨some (i, f i), ff⟩) ∨
      (∀ i ∈ l, ¬ c.accepts (f i)) ∧ ∃ ff,
        locateIn c ((l.map fun i => (i, f i)).map .ok) free = .ok ⟨none, ff⟩ ∧
        (∀ i, ff = some i → free = some i ∨ i ∈ l ∧ (f i).isActive = false) ∧
        (ff = none → free = none ∧ ∀ i ∈ l, (f i).isActive) := by
  induction l generalizing free with
  | nil => exact .inr ⟨by simp, free, rfl, fun i hi => .inl hi, fun h => ⟨h, by simp⟩⟩
  | cons j l ih =>
    rw [List.map_cons, List.map_cons, locateIn]
    by_cases hj : c.accepts (f j)
    · exact .inl ⟨j, List.mem_cons_self, hj, free, if_pos hj⟩
    · rw [if_neg hj]
      obtain ⟨free', hfree'⟩ : ∃ free', free' =
          if free.isNone && (f j).isFree then some j else free := ⟨_, rfl⟩
      rw [← hfree']
      rcases ih free' with ⟨i, hi, hacc, hrun⟩ | ⟨hnone, ff, hrun, hsome, hall⟩
      · exact .inl ⟨i, List.mem_cons_of_mem _ hi, hacc, hrun⟩
      · refine .inr ⟨?_, ff, hrun, ?_, ?_⟩
        · intro i hi
          rcases List.mem_cons.1 hi with rfl | hi
          · exact hj
          · exact hnone i hi
        · intro i hi
          rcases hsome i hi with hi | ⟨hi, hclear⟩
          · rw [hfree'] at hi
            split at hi
            · rename_i h
              cases hi
              simp only [DedupEntry.isFree, Bool.and_eq_true, Bool.not_eq_true'] at h
              exact .inr ⟨List.mem_cons_self, h.2⟩
            · exact .inl hi
          · exact .inr ⟨List.mem_cons_of_mem _ hi, hclear⟩
        · intro hff
          -- Nothing is remembered, so neither `j` nor anything before it was free.
          have hnot := (hall hff).1
          rw [hfree'] at hnot
          have hfree : free = none := by
            cases free with
            | none => rfl
            | some _ => simp at hnot
          have hactive : (f j).isActive = true := by
            cases hactive : (f j).isActive with
            | true => rfl
            | false => simp [hfree, DedupEntry.isFree, hactive] at hnot
          refine ⟨hfree, fun i hi => ?_⟩
          rcases List.mem_cons.1 hi with rfl | hi
          · exact hactive
          · exact (hall hff).2 i hi

/-- A scan finds an entry that is looked for, or there is none; then the free entry it reports is free,
and it reports one unless all entries are active. -/
theorem locate_cases {f : Nat → DedupEntry}
    (h : Reads r ((List.range t.capacity).map fun i => (i, f i)) (t.entries d)) (c : Criterion) :
    (∃ i < t.capacity, c.accepts (f i) ∧ ∃ ff, t.locate d c = .ok ⟨some (i, f i), ff⟩) ∨
      ((∀ i < t.capacity, ¬ c.accepts (f i)) ∧ ∃ ff, t.locate d c = .ok ⟨none, ff⟩ ∧
        (∀ i, ff = some i → i < t.capacity ∧ (f i).isActive = false) ∧
        (ff = none → ∀ i < t.capacity, (f i).isActive)) ∨
      (∃ e, t.locate d c = .error (.device e)) ∧ ¬ r := by
  rw [locate_eq_locateIn]
  rcases h.locateIn_eq c none with heq | hfault
  · rw [heq]
    rcases locateIn_map_ok c f (List.range t.capacity) none with
      ⟨i, hi, hacc, hrun⟩ | ⟨hnone, ff, hrun, hsome, hall⟩
    · exact .inl ⟨i, List.mem_range.1 hi, hacc, hrun⟩
    · refine .inr (.inl ⟨fun i hi => hnone i (List.mem_range.2 hi), ff, hrun, fun i hi => ?_,
        fun hff i hi => (hall hff).2 i (List.mem_range.2 hi)⟩)
      rcases hsome i hi with hno | ⟨hmem, hclear⟩
      · cases hno
      · exact ⟨List.mem_range.1 hmem, hclear⟩
  · exact .inr (.inr hfault)

end DedupTable

namespace Volume

variable {sb : Superblock} {r : Prop} {C : View → Prop} {v u : Volume} {w : View} {free : List Nat}

theorem Shows.reads_shared (h : v.Shows sb r w free) :
    Reads r (sb.sharedEntries w)
      (DedupTable.entries ⟨sb.dedupStart, sb.dedupBlocks⟩ v.device) := by
  have hshared : sb.sharedEntries w = (List.range sb.dedupCapacity).map fun i =>
      (i, DedupTable.entryAt ⟨sb.dedupStart, sb.dedupBlocks⟩ v.device.image i) := by
    refine List.map_congr_left ?_
    intro i hi
    rw [← h.view]
    simp only [Superblock.view, if_pos (List.mem_range.1 hi), DedupTable.entryAt]
  rw [hshared]
  refine DedupTable.reads_entries fun k hk => h.readBlock_eq ?_
  have hle := h.fits.dedup_le_dataStart
  dsimp only at hk ⊢
  omega

/-- A scan for a dedup entry finds it, or there is none; then the free entry it reports is free, and
it reports one unless all entries are active. -/
theorem Shows.locate_cases (h : v.Shows sb r w free) (c : Criterion) :
    (∃ i < sb.dedupCapacity, c.accepts (w.shared i) ∧ ∃ ff,
        DedupTable.locate ⟨sb.dedupStart, sb.dedupBlocks⟩ v.device c =
          .ok ⟨some (i, w.shared i), ff⟩) ∨
      ((∀ i < sb.dedupCapacity, ¬ c.accepts (w.shared i)) ∧ ∃ ff,
        DedupTable.locate ⟨sb.dedupStart, sb.dedupBlocks⟩ v.device c = .ok ⟨none, ff⟩ ∧
        (∀ i, ff = some i → i < sb.dedupCapacity ∧ (w.shared i).isActive = false) ∧
        (ff = none → ∀ i < sb.dedupCapacity, (w.shared i).isActive)) ∨
      (∃ e, DedupTable.locate ⟨sb.dedupStart, sb.dedupBlocks⟩ v.device c =
        .error (.device e)) ∧ ¬ r :=
  DedupTable.locate_cases (t := ⟨sb.dedupStart, sb.dedupBlocks⟩) (f := w.shared) h.reads_shared c

/-! ### Scans as parts of an action -/

theorem Shows.contains_cases (h : v.Shows sb r w free) (key : Key) :
    v.contains key = .ok (w.slotOf sb key).isSome ∨
      (∃ e, v.contains key = .error (.device e)) ∧ ¬ r := by
  rw [contains]
  rcases h.lookup_cases key with ⟨s, hok, hs⟩ | ⟨hnone, hs⟩ | ⟨⟨e, he⟩, hr⟩
  · left
    rw [hok, hs]
    rfl
  · left
    rw [hnone, hs]
    rfl
  · right
    rw [he]
    exact ⟨⟨e, rfl⟩, hr⟩

theorem runs_lookup (h : v.Shows sb r w free) (key : Key) :
    Runs sb r C (look (·.lookup key)) v
      (fun s u => w.slotOf sb key = some s ∧ u.Shows sb r w free)
      (fun e u => u.Shows sb r w free ∧
        (e = .notFound (.key key) ∧ w.slotOf sb key = none ∨ ¬ r)) := by
  rcases h.lookup_cases key with ⟨s, hok, hs⟩ | ⟨hnone, hs⟩ | ⟨⟨e, he⟩, hr⟩
  · refine .look ?_ ?_
    · intro t ht
      rw [hok] at ht
      cases ht
      exact ⟨hs, h.tick⟩
    · intro e he
      rw [hok] at he
      cases he
  · refine .look ?_ ?_
    · intro t ht
      rw [hnone] at ht
      cases ht
    · intro e he
      rw [hnone] at he
      cases he
      exact ⟨h.tick, .inl ⟨rfl, hs⟩⟩
  · refine .look (fun t ht => ?_) fun e he => ⟨h.tick, .inr hr⟩
    rw [he] at ht
    cases ht

theorem runs_contains (h : v.Shows sb r w free) (key : Key) :
    Runs sb r C (look (·.contains key)) v
      (fun b u => b = (w.slotOf sb key).isSome ∧ u.Shows sb r w free)
      (fun _ u => u.Shows sb r w free ∧ ¬ r) := by
  rcases h.contains_cases key with hok | ⟨⟨e, he⟩, hr⟩
  · refine .look ?_ ?_
    · intro b hb
      rw [hok] at hb
      cases hb
      exact ⟨rfl, h.tick⟩
    · intro e he
      rw [hok] at he
      cases he
  · refine .look (fun b hb => ?_) fun _ _ => ⟨h.tick, hr⟩
    rw [he] at hb
    cases hb

end Volume

end BlockStore
