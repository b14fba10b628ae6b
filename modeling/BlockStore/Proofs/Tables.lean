import BlockStore.Proofs.Contents

/-!
# The updates of the two tables

What each update of a table does to a view. A table is changed one entry at a time, so each of these
actions reads what it has to and then writes one block.

## Main results

* `Volume.runs_allocate`, `runs_touch`, `runs_renameKey`: an entry of the key table.
* `Volume.runs_share`, `runs_unref`: an entry of the dedup table.
-/

namespace BlockStore

namespace Volume

variable {sb : Superblock} {r : Prop} {C : View → Prop} {v u : Volume} {w : View} {free : List Nat}
  {P : Block → Prop} {σ : Nat → Nat} {s i : Nat}

/-! ### The key table -/

theorem runs_readEntry (h : v.Shows sb r w free) (hs : s < sb.slots) :
    Runs sb r C (look fun v => KeyTable.entry ⟨sb.keysStart, sb.slots⟩ v.device s) v
      (fun e u => e = w.keys s ∧ u.Shows sb r w free) (fun _ u => u.Shows sb r w free ∧ ¬ r) :=
  (Runs.look_eq (h.entry_eq hs)).mono (fun _ _ hq => ⟨hq.1, hq.2 ▸ h.tick⟩)
    fun _ _ he => ⟨he.1 ▸ h.tick, he.2⟩

theorem runs_allocate (h : v.Shows sb r w free) (hs : s < sb.slots) (hfree : w.keys s = .free)
    (key : Key) (now : Timestamp) (hC : C (w.setKey s (.active key now))) :
    Runs sb r C (onDevice (KeyTable.allocate ⟨sb.keysStart, sb.slots⟩ s key now)) v
      (fun _ u => u.Shows sb r (w.setKey s (.active key now)) free)
      (fun _ u => u.Shows sb r w free ∧ ¬ r) := by
  rw [KeyTable.allocate, onDevice_bind, onDevice_look]
  refine (runs_readEntry h hs).bind ?_
  rintro e u ⟨rfl, hu⟩
  rw [if_pos (by rw [hfree]; decide)]
  exact runs_writeKey hu hs hC

/-- The entry of an active slot is read as it is, unless the device is not reliable. -/
theorem runs_readActive (h : v.Shows sb r w free) (hs : s < sb.slots) (hactive : w.Active s) :
    Runs sb r C (look fun v => KeyTable.activeEntry ⟨sb.keysStart, sb.slots⟩ v.device s) v
      (fun e u => e = w.keys s ∧ u.Shows sb r w free) (fun _ u => u.Shows sb r w free ∧ ¬ r) := by
  rw [View.Active] at hactive
  have hread : KeyTable.activeEntry ⟨sb.keysStart, sb.slots⟩ v.device s = .ok (w.keys s) ∨
      (∃ e, KeyTable.activeEntry ⟨sb.keysStart, sb.slots⟩ v.device s = .error (.device e)) ∧ ¬ r := by
    rcases h.entry_eq hs with hok | ⟨⟨e, herror⟩, hr⟩
    · left
      simp only [KeyTable.activeEntry, hok, bind, Except.bind, hactive, if_true, pure, Except.pure]
    · exact .inr ⟨⟨e, by simp only [KeyTable.activeEntry, herror, bind, Except.bind]⟩, hr⟩
  exact (Runs.look_eq hread).mono (fun _ _ hq => ⟨hq.1, hq.2 ▸ h.tick⟩)
    fun _ _ he => ⟨he.1 ▸ h.tick, he.2⟩

theorem runs_renameKey (h : v.Shows sb r w free) (hs : s < sb.slots) (hactive : w.Active s) (key : Key)
    (hC : C (w.setKey s { w.keys s with key })) :
    Runs sb r C (onDevice (KeyTable.rename ⟨sb.keysStart, sb.slots⟩ s key)) v
      (fun _ u => u.Shows sb r (w.setKey s { w.keys s with key }) free)
      (fun _ u => u.Shows sb r w free ∧ ¬ r) := by
  rw [KeyTable.rename, onDevice_bind, onDevice_look]
  refine (runs_readActive h hs hactive).bind ?_
  rintro e u ⟨rfl, hu⟩
  exact runs_writeKey hu hs hC

theorem runs_touch (h : v.Shows sb r w free) (hs : s < sb.slots) (hactive : w.Active s)
    (timestamp : Timestamp) (hC : C (w.setKey s { w.keys s with timestamp })) :
    Runs sb r C (onDevice (KeyTable.touch ⟨sb.keysStart, sb.slots⟩ s timestamp)) v
      (fun _ u => u.Shows sb r (w.setKey s { w.keys s with timestamp }) free)
      (fun _ u => u.Shows sb r w free ∧ ¬ r) := by
  rw [KeyTable.touch, onDevice_bind, onDevice_look]
  refine (runs_readActive h hs hactive).bind ?_
  rintro e u ⟨rfl, hu⟩
  exact runs_writeKey hu hs hC

/-! ### The dedup table -/

theorem Shows.dedupTable_eq (h : v.Shows sb r w free) :
    v.dedupTable = if sb.isDedup then some ⟨sb.dedupStart, sb.dedupBlocks⟩ else none := by
  rw [dedupTable, h.superblock]

/-- A dedup entry is read as it is, unless the device is not reliable. -/
theorem Shows.sharedEntry_eq (h : v.Shows sb r w free) (hi : i < sb.dedupCapacity) :
    DedupTable.entry ⟨sb.dedupStart, sb.dedupBlocks⟩ v.device i = .ok (w.shared i) ∨
      (∃ e, DedupTable.entry ⟨sb.dedupStart, sb.dedupBlocks⟩ v.device i = .error (.device e)) ∧
        ¬ r := by
  have hlt : sb.dedupStart + i / recordsPerBlock < sb.dataStart + sb.slots :=
    Nat.lt_of_lt_of_le (h.fits.dedup_lt_dataStart hi) (Nat.le_add_right _ _)
  rcases h.readBlock_eq hlt with hok | ⟨⟨e, herror⟩, hr⟩
  · left
    simp only [DedupTable.entry, RecordTable.read, DedupTable.records, RecordTable.blockOf, hok, bind,
      Except.bind, pure, Except.pure]
    rw [← h.view]
    simp [Superblock.view, hi]
  · right
    refine ⟨⟨e, ?_⟩, hr⟩
    simp only [DedupTable.entry, RecordTable.read, DedupTable.records, RecordTable.blockOf, herror,
      bind, Except.bind]

/-- What a scan for a dedup entry returns when the device is reliable. -/
theorem runs_locate (h : v.Shows sb r w free) (c : Criterion) :
    Runs sb r C (look fun v => DedupTable.locate ⟨sb.dedupStart, sb.dedupBlocks⟩ v.device c) v
      (fun l u => u.Shows sb r w free ∧
        ((∃ i < sb.dedupCapacity, c.accepts (w.shared i) ∧ l.found = some (i, w.shared i)) ∨
          (∀ i < sb.dedupCapacity, ¬ c.accepts (w.shared i)) ∧ l.found = none ∧
            (∀ i, l.firstFree = some i → i < sb.dedupCapacity ∧ (w.shared i).isActive = false) ∧
            (l.firstFree = none → ∀ i < sb.dedupCapacity, (w.shared i).isActive)))
      (fun _ u => u.Shows sb r w free ∧ ¬ r) := by
  rcases h.locate_cases c with ⟨i, hi, hacc, ff, hok⟩ | ⟨hnone, ff, hok, hsome, hall⟩ |
    ⟨⟨e, herror⟩, hr⟩
  · refine .look ?_ ?_
    · intro l hl
      rw [hok] at hl
      cases hl
      exact ⟨h.tick, .inl ⟨i, hi, hacc, rfl⟩⟩
    · intro e he
      rw [hok] at he
      cases he
  · refine .look ?_ ?_
    · intro l hl
      rw [hok] at hl
      cases hl
      exact ⟨h.tick, .inr ⟨hnone, rfl, hsome, hall⟩⟩
    · intro e he
      rw [hok] at he
      cases he
  · exact .look (fun l hl => by rw [herror] at hl; cases hl) fun _ _ => ⟨h.tick, hr⟩

theorem accepts_content {key : Key} :
    (Criterion.content key).accepts (w.shared i) = true ↔ w.Held i ∧ (w.shared i).key = key := by
  simp [Criterion.accepts, View.Held]

theorem accepts_block {b : Nat} :
    (Criterion.block b).accepts (w.shared i) = true ↔ w.Held i ∧ (w.shared i).block = b := by
  simp [Criterion.accepts, View.Held]

/-- The entry after one more reference was taken. -/
def shareEntry (e : DedupEntry) : DedupEntry := { e with refCount := e.refCount + 1 }

theorem refCount_shareEntry {e : DedupEntry} (h : e.refCount.toNat + 1 < 1 <<< 16) :
    (shareEntry e).refCount.toNat = e.refCount.toNat + 1 := by
  change (e.refCount + 1).toNat = _
  rw [UInt16.toNat_add]
  exact Nat.mod_eq_of_lt h

/-- The entry of a content that is new to the table. -/
def newEntry (content : Key) (block : Nat) : DedupEntry :=
  ⟨content, DedupEntry.activeFlag, 1, UInt64.ofNat block⟩

theorem isActive_newEntry (content : Key) (block : Nat) : (newEntry content block).isActive := by
  change (DedupEntry.activeFlag &&& DedupEntry.activeFlag != 0) = true
  decide

theorem block_newEntry (content : Key) {block : Nat} (h : block < 2 ^ 64) :
    (newEntry content block).block = block := UInt64.toNat_ofNat_of_lt' h

/-- The entry after one reference was dropped. -/
def unrefEntry (e : DedupEntry) : DedupEntry :=
  if e.refCount.toNat - 1 = 0 then .free
  else { e with refCount := UInt16.ofNat (e.refCount.toNat - 1) }

theorem unrefEntry_of_ne_zero {e : DedupEntry} (h : e.refCount.toNat - 1 ≠ 0) :
    unrefEntry e = { e with refCount := UInt16.ofNat (e.refCount.toNat - 1) } := if_neg h

theorem refCount_unrefEntry (e : DedupEntry) :
    (UInt16.ofNat (e.refCount.toNat - 1)).toNat = e.refCount.toNat - 1 :=
  UInt16.toNat_ofNat_of_lt' (Nat.lt_of_le_of_lt (Nat.sub_le _ _) e.refCount.toNat_lt)

/-- Taking a reference to a content: the entry that has it counts one more, or a free entry takes the
candidate. It fails if the count is at its limit or no entry is free. -/
theorem runs_share (h : v.Shows sb r w free) (content : Key) (candidate : Nat)
    (hknown : ∀ i, w.Held i → (w.shared i).key = content → (w.shared i).refCount.toNat + 1 < 1 <<< 16 →
      C (w.setShared i (shareEntry (w.shared i))))
    (hfresh : ∀ i < sb.dedupCapacity, ¬ w.Held i →
      (∀ j < sb.dedupCapacity, w.Held j → (w.shared j).key ≠ content) →
      C (w.setShared i (newEntry content candidate))) :
    Runs sb r C
      (onDevice (DedupTable.share ⟨sb.dedupStart, sb.dedupBlocks⟩ content candidate)) v
      (fun p u =>
        (∃ i < sb.dedupCapacity, w.Held i ∧ (w.shared i).key = content ∧
          (w.shared i).refCount.toNat + 1 < 1 <<< 16 ∧ p = (w.shared i).block ∧
          u.Shows sb r (w.setShared i (shareEntry (w.shared i))) free) ∨
        (∀ j < sb.dedupCapacity, w.Held j → (w.shared j).key ≠ content) ∧ p = candidate ∧
          ∃ i < sb.dedupCapacity, ¬ w.Held i ∧
            u.Shows sb r (w.setShared i (newEntry content candidate)) free)
      (fun e u => u.Shows sb r w free ∧
        ((∃ i, w.Held i ∧ (w.shared i).key = content ∧ (w.shared i).refCount.toNat = 65535 ∧
            e = .refcountSaturated (w.shared i).block) ∨
          (e = .tableFull ∧ ∀ i < sb.dedupCapacity, w.Held i) ∨ ¬ r)) := by
  rw [DedupTable.share, onDevice_bind, onDevice_look]
  refine ((runs_locate h (.content content)).mono (fun _ _ hq => hq)
    fun e u he => ⟨he.1, .inr (.inr he.2)⟩).bind ?_
  rintro l u ⟨hu, ⟨i, hi, hacc, hfound⟩ | ⟨hnone, hfound, hsome, hall⟩⟩
  · obtain ⟨hheld, hkey⟩ := accepts_content.1 hacc
    simp only [hfound]
    by_cases hroom : (w.shared i).refCount.toNat + 1 < 1 <<< 16
    · rw [if_pos hroom, onDevice_bind]
      refine .bind ((runs_writeShared hu hi (hknown i hheld hkey hroom)).mono (fun _ _ hq => hq)
        fun e u he => ⟨he.1, .inr (.inr he.2)⟩) fun _ t ht => ?_
      exact .pure (.inl ⟨i, hi, hheld, hkey, hroom, rfl, ht⟩)
    · rw [if_neg hroom]
      have hlt := (w.shared i).refCount.toNat_lt
      exact .throw ⟨hu, .inl ⟨i, hheld, hkey, by rw [Nat.one_shiftLeft] at hroom; omega, rfl⟩⟩
  · have hno : ∀ j < sb.dedupCapacity, w.Held j → (w.shared j).key ≠ content := fun j hj hheld hkey =>
      hnone j hj (accepts_content.2 ⟨hheld, hkey⟩)
    simp only [hfound]
    cases hfirst : l.firstFree with
    | none =>
      exact .throw ⟨hu, .inr (.inl ⟨rfl, hall hfirst⟩)⟩
    | some i =>
      obtain ⟨hi, hclear⟩ := hsome i hfirst
      have hidle : ¬ w.Held i := by rw [View.Held, hclear]; decide
      rw [onDevice_bind]
      refine .bind ((runs_writeShared hu hi (hfresh i hi hidle hno)).mono (fun _ _ hq => hq)
        fun e u he => ⟨he.1, .inr (.inr he.2)⟩) fun _ t ht => ?_
      exact .pure (.inr ⟨hno, rfl, i, hi, hidle, ht⟩)

/-- Taking a reference to a content that the table has, with room for one more. -/
theorem runs_share_known (h : v.Shows sb r w free) (hw : w.Sound sb P σ) (hi : w.Held i)
    (hroom : (w.shared i).refCount.toNat + 1 < 1 <<< 16) (candidate : Nat)
    (hC : C (w.setShared i (shareEntry (w.shared i)))) :
    Runs sb r C
      (onDevice (DedupTable.share ⟨sb.dedupStart, sb.dedupBlocks⟩ (w.shared i).key candidate)) v
      (fun p u => p = (w.shared i).block ∧ u.Shows sb r (w.setShared i (shareEntry (w.shared i))) free)
      (fun _ u => u.Shows sb r w free ∧ ¬ r) := by
  rw [DedupTable.share, onDevice_bind, onDevice_look]
  refine (runs_locate h (.content (w.shared i).key)).bind ?_
  rintro l u ⟨hu, ⟨j, -, hacc, hfound⟩ | ⟨hnone, -⟩⟩
  · obtain ⟨hj, hkey⟩ := accepts_content.1 hacc
    obtain rfl := hw.content_inj hj hi hkey
    simp only [hfound]
    rw [if_pos hroom, onDevice_bind]
    exact (runs_writeShared hu (hw.held_lt hj) hC).bind fun _ t ht => .pure ⟨rfl, ht⟩
  · exact absurd (accepts_content.2 ⟨hi, rfl⟩) (hnone i (hw.held_lt hi))

/-- Dropping a reference to a block that the table has: its entry counts one less, or is freed. -/
theorem runs_unref (h : v.Shows sb r w free) (hw : w.Sound sb P σ) (hi : w.Held i)
    (hC : C (w.setShared i (unrefEntry (w.shared i)))) :
    Runs sb r C
      (onDevice (DedupTable.unref ⟨sb.dedupStart, sb.dedupBlocks⟩ (w.shared i).block)) v
      (fun left u => left = (w.shared i).refCount.toNat - 1 ∧
        u.Shows sb r (w.setShared i (unrefEntry (w.shared i))) free) (fun _ _ => ¬ r) := by
  rw [DedupTable.unref, onDevice_bind, onDevice_look]
  refine ((runs_locate h (.block (w.shared i).block)).mono (fun _ _ hq => hq)
    fun _ _ he => he.2).bind ?_
  rintro l u ⟨hu, ⟨j, -, hacc, hfound⟩ | ⟨hnone, -⟩⟩
  · obtain ⟨hj, hblock⟩ := accepts_block.1 hacc
    obtain rfl := hw.block_inj hj hi hblock
    simp only [hfound]
    rw [onDevice_bind]
    refine .bind ((runs_writeShared hu (hw.held_lt hj) hC).mono (fun _ _ hq => hq)
      fun _ _ he => he.2) fun _ t ht => ?_
    exact .pure ⟨rfl, ht⟩
  · exact absurd (accepts_block.2 ⟨hi, rfl⟩) (hnone i (hw.held_lt hi))

end Volume

end BlockStore
