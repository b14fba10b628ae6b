import BlockStore.Proofs.Geometry
import BlockStore.Volume.Check

/-!
# What a scan depends on

A scan of a table looks at the blocks of the table and at nothing else, and what it finds is an entry of
the table. Both hold of any device, whatever stands in those blocks and whichever of them can be read.

The key table ends inside a block, and a scan of it ends with the first block that cannot be read. Neither
has to be computed with by those who know that the slots are read one after the other.

## Main definitions

* `KeyTable.readSlots`: the entries of slots that are read one by one.

## Main results

* `KeyTable.entries_eq_readSlots`: the scan of a key table, slot by slot.
* `KeyTable.entries_congr`, `DedupTable.entries_congr`, `locate_congr`: two devices on which the blocks
  of a table are read alike are scanned alike.
* `KeyTable.lt_of_lookup`, `DedupTable.lt_of_locate`: what is found has a number below that of the
  entries.
* `mem_of_classify`, `mem_of_acceptEntries`: what a check picks has been scanned.
-/

namespace BlockStore

theorem RecordTable.split_index {i : Nat} (hi : i < recordsPerBlock) (k : Nat) :
    (k * recordsPerBlock + i) / recordsPerBlock = k ∧
      (k * recordsPerBlock + i) % recordsPerBlock = i := by
  simp only [recordsPerBlock, recordSize, blockSize] at *
  omega

/-! ### The key table -/

namespace KeyTable

variable {t : KeyTable} {d d' : Device}

/-- Reading an entry is reading its block. -/
theorem entry_of_lt {s : Nat} (hs : s < t.slots) :
    t.entry d s = (d.readBlock (t.start + s / recordsPerBlock)).map
      fun b => .ofRecord (b.record (s % recordsPerBlock)) := by
  simp only [entry, demandSlot, if_pos hs, RecordTable.read, RecordTable.blockOf, records, bind,
    Except.bind, pure, Except.pure]
  cases d.readBlock (t.start + s / recordsPerBlock) <;> rfl

/-- The entries of slots that are read one after the other, up to the first that cannot be read. -/
def readSlots (t : KeyTable) (d : Device) : List Nat → List (Except StoreError (Nat × KeyEntry))
  | [] => []
  | s :: rest =>
    match t.entry d s with
    | .ok e => .ok (s, e) :: readSlots t d rest
    | .error e => [.error e]

theorem readSlots_append {f : Nat → KeyEntry} {l : List Nat} (h : ∀ s ∈ l, t.entry d s = .ok (f s))
    (l' : List Nat) :
    t.readSlots d (l ++ l') = (l.map fun s => .ok (s, f s)) ++ t.readSlots d l' := by
  induction l with
  | nil => rfl
  | cons s l ih =>
    have hrest := ih fun s' hs' => h s' (List.mem_cons_of_mem _ hs')
    rw [List.cons_append, readSlots, h s List.mem_cons_self, hrest]
    rfl

theorem entry_in_block {k i : Nat} (hi : i < recordsPerBlock) (hlt : k * recordsPerBlock + i < t.slots) :
    t.entry d (k * recordsPerBlock + i) =
      (d.readBlock (t.start + k)).map fun b => .ofRecord (b.record i) := by
  obtain ⟨hdiv, hmod⟩ := RecordTable.split_index hi k
  rw [entry_of_lt hlt, hdiv, hmod]

/-- The slots of a block that can be read. -/
theorem readSlots_block {b : Block} {k n : Nat} (hread : d.readBlock (t.start + k) = .ok b)
    (hn : n ≤ recordsPerBlock) (hle : k * recordsPerBlock + n ≤ t.slots) (l : List Nat) :
    t.readSlots d (List.range' (k * recordsPerBlock) n ++ l) =
      ((RecordTable.recordsIn b k n).map fun (slot, r) => .ok (slot, .ofRecord r)) ++ t.readSlots d l := by
  have hslots : ∀ s ∈ List.range' (k * recordsPerBlock) n,
      t.entry d s = .ok (.ofRecord (b.record (s % recordsPerBlock))) := by
    intro s hs
    obtain ⟨i, hi, rfl⟩ := List.mem_range'.1 hs
    rw [Nat.one_mul, entry_in_block (by omega) (by omega), hread, (RecordTable.split_index (by omega) k).2]
    rfl
  have hlist : ((List.range' (k * recordsPerBlock) n).map fun s =>
      (.ok (s, KeyEntry.ofRecord (b.record (s % recordsPerBlock))) : Except StoreError _)) =
        (RecordTable.recordsIn b k n).map fun (slot, r) => .ok (slot, .ofRecord r) := by
    rw [RecordTable.recordsIn, List.map_map, List.range'_eq_map_range, List.map_map]
    refine List.map_congr_left fun i hi => ?_
    have hi := List.mem_range.1 hi
    simp only [Function.comp_apply, (RecordTable.split_index (show i < recordsPerBlock by omega) k).2]
  rw [readSlots_append hslots, hlist]

/-- Reading block by block reads slot by slot: the slots of a block can all be read or none of them. -/
theorem entriesFrom_eq_readSlots {blocks k : Nat} (hk : k + blocks = ceilDiv t.slots recordsPerBlock) :
    t.entriesFrom d blocks k =
      t.readSlots d (List.range' (k * recordsPerBlock) (t.slots - k * recordsPerBlock)) := by
  induction blocks generalizing k with
  | zero =>
    have hnone : t.slots - k * recordsPerBlock = 0 := by
      simp only [ceilDiv, recordsPerBlock, recordSize, blockSize] at *
      omega
    rw [hnone]
    rfl
  | succ blocks ih =>
    have hstart : k * recordsPerBlock < t.slots := by
      simp only [ceilDiv, recordsPerBlock, recordSize, blockSize] at *
      omega
    rw [entriesFrom]
    cases hread : d.readBlock (t.start + k) with
    | error e =>
      have hfirst : t.entry d (k * recordsPerBlock) = .error e := by
        rw [entry_of_lt hstart, Nat.mul_div_cancel _ (by decide), hread]
        rfl
      obtain ⟨m, hm⟩ : ∃ m, t.slots - k * recordsPerBlock = m + 1 := ⟨_, (Nat.succ_pred (by omega)).symm⟩
      rw [hm, List.range'_succ, readSlots, hfirst]
    | ok b =>
      obtain ⟨n, hn⟩ : ∃ n, n = min recordsPerBlock (t.slots - k * recordsPerBlock) := ⟨_, rfl⟩
      have hrest : t.entriesFrom d blocks (k + 1) = t.readSlots d
          (List.range' (k * recordsPerBlock + n) (t.slots - (k + 1) * recordsPerBlock)) := by
        rw [ih (by omega)]
        -- Either the next block begins after this one, or there are no more slots.
        rcases Nat.eq_zero_or_pos (t.slots - (k + 1) * recordsPerBlock) with hend | hmore
        · rw [hend]
          rfl
        · rw [show (k + 1) * recordsPerBlock = k * recordsPerBlock + n by rw [Nat.succ_mul] at *; omega]
      have hsplit : t.slots - k * recordsPerBlock = n + (t.slots - (k + 1) * recordsPerBlock) := by
        rw [Nat.succ_mul]
        omega
      rw [← hn, hrest, hsplit, ← List.range'_append_1, readSlots_block hread (by omega) (by omega)]

/-- A scan of the table reads slot by slot. -/
theorem entries_eq_readSlots : t.entries d = t.readSlots d (List.range t.slots) := by
  have hall := entriesFrom_eq_readSlots (t := t) (d := d) (Nat.zero_add _)
  rwa [Nat.zero_mul, Nat.sub_zero, ← List.range_eq_range'] at hall

theorem entriesFrom_congr {blocks k : Nat}
    (h : ∀ j, j < k + blocks → d'.readBlock (t.start + j) = d.readBlock (t.start + j)) :
    t.entriesFrom d' blocks k = t.entriesFrom d blocks k := by
  induction blocks generalizing k with
  | zero => rfl
  | succ blocks ih =>
    rw [entriesFrom, entriesFrom, h k (by omega), ih fun j hj => h j (by omega)]

/-- The entries are a matter of the blocks that hold them. -/
theorem entries_congr (h : ∀ k < ceilDiv t.slots recordsPerBlock,
    d'.readBlock (t.start + k) = d.readBlock (t.start + k)) : t.entries d' = t.entries d :=
  entriesFrom_congr fun j hj => h j (by omega)

theorem mem_of_mem_readSlots {l : List Nat} {s : Nat} {e : KeyEntry} (h : .ok (s, e) ∈ t.readSlots d l) :
    s ∈ l := by
  induction l with
  | nil => cases h
  | cons s' l ih =>
    rw [readSlots] at h
    cases he : t.entry d s' with
    | error e' => simp [he] at h
    | ok e' =>
      simp only [he, List.mem_cons, Except.ok.injEq, Prod.mk.injEq] at h
      rcases h with ⟨rfl, -⟩ | h
      · exact List.mem_cons_self
      · exact List.mem_cons_of_mem _ (ih h)

/-- Every entry that a scan sees belongs to a slot. -/
theorem lt_of_mem_entries {s : Nat} {e : KeyEntry} (h : .ok (s, e) ∈ t.entries d) : s < t.slots :=
  List.mem_range.1 (mem_of_mem_readSlots (entries_eq_readSlots ▸ h))

theorem mem_of_mem_activeOf {s : Nat} {key : Key} {l : List (Except StoreError (Nat × KeyEntry))}
    (h : .ok (s, key) ∈ activeOf l) : ∃ e, .ok (s, e) ∈ l := by
  induction l with
  | nil => cases h
  | cons x l ih =>
    cases x with
    | error e =>
      rw [activeOf, List.mem_cons] at h
      obtain ⟨e', he'⟩ := ih (h.resolve_left (by simp))
      exact ⟨e', List.mem_cons_of_mem _ he'⟩
    | ok item =>
      obtain ⟨s', e⟩ := item
      by_cases hactive : e.isActive
      · rw [activeOf, if_pos hactive, List.mem_cons] at h
        rcases h with h | h
        · cases h
          exact ⟨e, List.mem_cons_self⟩
        · obtain ⟨e', he'⟩ := ih h
          exact ⟨e', List.mem_cons_of_mem _ he'⟩
      · rw [activeOf, if_neg hactive] at h
        obtain ⟨e', he'⟩ := ih h
        exact ⟨e', List.mem_cons_of_mem _ he'⟩

theorem mem_of_findKey {s : Nat} {key : Key} {l : List (Except StoreError (Nat × Key))}
    (h : findKey key l = .ok s) : .ok (s, key) ∈ l := by
  induction l with
  | nil => cases h
  | cons x l ih =>
    cases x with
    | error e => cases h
    | ok item =>
      obtain ⟨s', k⟩ := item
      rw [findKey] at h
      split at h
      case isTrue hk =>
        cases h
        subst hk
        exact List.mem_cons_self
      case isFalse => exact List.mem_cons_of_mem _ (ih h)

/-- A key is found in a slot of the table. -/
theorem lt_of_lookup {key : Key} {s : Nat} (h : t.lookup d key = .ok s) : s < t.slots := by
  obtain ⟨e, he⟩ := mem_of_mem_activeOf (mem_of_findKey h)
  exact lt_of_mem_entries he

theorem entry_congr {s : Nat}
    (h : s < t.slots → d'.readBlock (t.start + s / recordsPerBlock) =
      d.readBlock (t.start + s / recordsPerBlock)) : t.entry d' s = t.entry d s := by
  by_cases hs : s < t.slots
  · simp only [entry, RecordTable.read, RecordTable.blockOf, records, h hs]
  · simp only [entry, demandSlot, if_neg hs, bind, Except.bind]

end KeyTable

/-! ### The dedup table -/

namespace DedupTable

variable {t : DedupTable} {d d' : Device} {c : Criterion}

theorem entriesIn_congr {k : Nat} (h : d'.readBlock (t.start + k) = d.readBlock (t.start + k)) :
    t.entriesIn d' k = t.entriesIn d k := by
  rw [entriesIn, entriesIn, h]

/-- The entries are a matter of the blocks that hold them. -/
theorem entries_congr (h : ∀ k < t.blocks, d'.readBlock (t.start + k) = d.readBlock (t.start + k)) :
    t.entries d' = t.entries d := by
  have hmap : (List.range t.blocks).map (t.entriesIn d') = (List.range t.blocks).map (t.entriesIn d) :=
    List.map_congr_left fun k hk => entriesIn_congr (h k (List.mem_range.1 hk))
  rw [entries, entries, List.flatMap_def, List.flatMap_def, hmap]

theorem locate_congr (h : ∀ k < t.blocks, d'.readBlock (t.start + k) = d.readBlock (t.start + k)) :
    t.locate d' c = t.locate d c := by
  rw [locate_eq_locateIn, locate_eq_locateIn, entries_congr h]

/-- Every entry that a scan sees has an index below the number of entries. -/
theorem lt_of_mem_entries {i : Nat} {e : DedupEntry} (h : .ok (i, e) ∈ t.entries d) :
    i < t.capacity := by
  obtain ⟨k, hk, h⟩ := List.mem_flatMap.1 h
  have hk : k < t.blocks := List.mem_range.1 hk
  rw [entriesIn] at h
  cases hread : d.readBlock (t.start + k) with
  | error e => simp [hread] at h
  | ok b =>
    simp only [hread, List.mem_map, RecordTable.recordsIn, List.mem_range] at h
    obtain ⟨⟨i', rec⟩, ⟨j, hj, heq⟩, hi⟩ := h
    cases heq
    cases hi
    have := Nat.mul_le_mul_right recordsPerBlock (show k + 1 ≤ t.blocks from hk)
    rw [Nat.succ_mul] at this
    rw [capacity]
    omega

theorem mem_of_locateIn {l : List (Except StoreError (Nat × DedupEntry))} {free : Option Nat}
    {located : Located} (h : locateIn c l free = .ok located) :
    (∀ item, located.found = some item → .ok item ∈ l) ∧
      ∀ i, located.firstFree = some i → free = some i ∨ ∃ e, .ok (i, e) ∈ l := by
  induction l generalizing free with
  | nil =>
    cases h
    exact ⟨nofun, fun i h => .inl h⟩
  | cons x l ih =>
    cases x with
    | error e => cases h
    | ok item =>
      obtain ⟨j, e⟩ := item
      rw [locateIn] at h
      split at h
      · cases h
        refine ⟨fun item h => ?_, fun i h => .inl h⟩
        cases h
        exact List.mem_cons_self
      · obtain ⟨hfound, hfree⟩ := ih h
        refine ⟨fun item h => List.mem_cons_of_mem _ (hfound item h), fun i h => ?_⟩
        rcases hfree i h with h | ⟨e', he'⟩
        · split at h
          · cases h
            exact .inr ⟨e, List.mem_cons_self⟩
          · exact .inl h
        · exact .inr ⟨e', List.mem_cons_of_mem _ he'⟩

/-- Both what is found and the free entry that is handed out are entries of the table. -/
theorem lt_of_locate {located : Located} (h : t.locate d c = .ok located) :
    (∀ i e, located.found = some (i, e) → i < t.capacity) ∧
      ∀ i, located.firstFree = some i → i < t.capacity := by
  rw [locate_eq_locateIn] at h
  obtain ⟨hfound, hfree⟩ := mem_of_locateIn h
  refine ⟨fun i e h => lt_of_mem_entries (hfound _ h), fun i h => ?_⟩
  rcases hfree i h with h | ⟨e, he⟩
  · cases h
  · exact lt_of_mem_entries he

theorem entry_congr {i : Nat} (h : d'.readBlock (t.start + i / recordsPerBlock) =
    d.readBlock (t.start + i / recordsPerBlock)) : t.entry d' i = t.entry d i := by
  simp only [entry, RecordTable.read, RecordTable.blockOf, records, h]

end DedupTable

/-- What is collected from a list is in it. -/
theorem mem_of_collect {α : Type} {l : List (Except StoreError α)} {as : List α}
    (h : collect l = .ok as) {a : α} (ha : a ∈ as) : .ok a ∈ l := by
  induction l generalizing as with
  | nil =>
    cases h
    cases ha
  | cons x l ih =>
    cases x with
    | error e => cases h
    | ok b =>
      rw [collect] at h
      cases hrest : collect l with
      | error e =>
        rw [hrest] at h
        cases h
      | ok rest =>
        rw [hrest] at h
        cases h
        rcases List.mem_cons.1 ha with rfl | ha
        · exact List.mem_cons_self
        · exact List.mem_cons_of_mem _ (ih hrest ha)

/-! ### What a check picks -/

/-- Only slots that have been looked at get a role. -/
theorem mem_of_classify {seen : List Key} {entries : List (Nat × KeyEntry)} {s : Nat} {role : SlotRole}
    (h : (s, role) ∈ classify seen entries) : ∃ e, (s, e) ∈ entries := by
  induction entries generalizing seen with
  | nil => cases h
  | cons item rest ih =>
    obtain ⟨t, e⟩ := item
    have hcons {role' : SlotRole} {seen' : List Key} (h : (s, role) ∈ (t, role') :: classify seen' rest) :
        ∃ e', (s, e') ∈ (t, e) :: rest := by
      rcases List.mem_cons.1 h with h | h
      · cases h
        exact ⟨e, List.mem_cons_self⟩
      · obtain ⟨e', he'⟩ := ih h
        exact ⟨e', List.mem_cons_of_mem _ he'⟩
    rw [classify] at h
    split at h
    · exact hcons h
    split at h
    · exact hcons h
    split at h
    · exact hcons h
    · exact hcons h

/-- An accepted block and a rejected index come from an entry that has been looked at. -/
theorem mem_of_acceptEntries (sb : Superblock) (logical : List Nat) (acc : List SharedBlock)
    (entries : List (Nat × DedupEntry)) :
    (∀ b ∈ (acceptEntries sb logical acc entries).1, b ∈ acc ∨ ∃ e, (b.index, e) ∈ entries) ∧
      ∀ i ∈ (acceptEntries sb logical acc entries).2, ∃ e, (i, e) ∈ entries := by
  induction entries generalizing acc with
  | nil => exact ⟨fun b hb => .inl hb, fun i hi => by cases hi⟩
  | cons item rest ih =>
    obtain ⟨j, e⟩ := item
    have hlater {i : Nat} (h : ∃ e', (i, e') ∈ rest) : ∃ e', (i, e') ∈ (j, e) :: rest := by
      obtain ⟨e', he'⟩ := h
      exact ⟨e', List.mem_cons_of_mem _ he'⟩
    rw [acceptEntries]
    split
    · split
      case h_1 shared hshared =>
        have hindex : shared.index = j := by
          rw [accept?] at hshared
          split at hshared
          · cases hshared
          · split at hshared <;> cases hshared
            rfl
        refine ⟨fun b hb => ?_, fun i hi => hlater ((ih _).2 i hi)⟩
        rcases (ih _).1 b hb with hb | hb
        · rcases List.mem_append.1 hb with hb | hb
          · exact .inl hb
          · obtain rfl := List.mem_singleton.1 hb
            exact .inr ⟨e, hindex ▸ List.mem_cons_self⟩
        · exact .inr (hlater hb)
      case h_2 =>
        refine ⟨fun b hb => ((ih _).1 b hb).imp_right hlater, fun i hi => ?_⟩
        rcases List.mem_cons.1 hi with rfl | hi
        · exact ⟨e, List.mem_cons_self⟩
        · exact hlater ((ih _).2 i hi)
    · exact ⟨fun b hb => ((ih _).1 b hb).imp_right hlater, fun i hi => hlater ((ih _).2 i hi)⟩

end BlockStore
