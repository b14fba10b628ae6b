import BlockStore.Proofs.Tables

/-!
# What a check finds

The findings of a check are functions of the view that it starts from, whatever damage that view has.
The classification of the slots is determined slot by slot. Which dedup entries are accepted depends on
the order of the table; what is used of it below is that the accepted entries do not get in each
other's way, and why an entry may be rejected.

## Main definitions

* `View.First`: the slot has the first active entry of its key.
* `View.logical`, `discarded`, `accepted`, `rejected`, `dangling`, `kept`, `referenced`: the findings.
* `View.Claims`: what is known of an accepted entry.
* `View.report`: the report of a check.

## Main results

* `View.mem_logical`, `mem_discarded`: the classification, slot by slot.
* `View.claims_of_mem`, `eq_or_apart`, `mem_rejected`: the accepted and the rejected entries.
* `View.Shareable.rejected_eq_nil`: no entry is rejected where none of the reasons applies.
* `View.actual_eq`: the references that are counted for an accepted entry.
-/

namespace BlockStore

/-- The wrong counts among the `blocks`. -/
def countFixes (pointers : List Nat) (blocks : List SharedBlock) : List RefcountFix :=
  (blocks.filter fun b => refsTo pointers b.block ≠ b.recorded).map fun b =>
    ⟨b.index, b.recorded, refsTo pointers b.block⟩

namespace View

section Findings

variable (w : View) (sb : Superblock)

/-- The role of each slot. -/
def roles : List (Nat × SlotRole) := classify [] (sb.keyEntries w)

/-- The slots with the first entry of a key. -/
def logical : List Nat := slotsWhere (· = .logical) (w.roles sb)

/-- The slots whose entry has to go. -/
def discarded : List Nat := slotsWhere SlotRole.isDiscarded (w.roles sb)

/-- The blocks of the dedup entries that may be kept. -/
def accepted : List SharedBlock := (acceptEntries sb (w.logical sb) [] (sb.sharedEntries w)).1

/-- The dedup entries that have to go. -/
def rejected : List Nat := (acceptEntries sb (w.logical sb) [] (sb.sharedEntries w)).2

/-- The blocks that may be shared. -/
def sharedBlocks : List Nat := (w.accepted sb).map (·.block)

/-- The pointers of slots that lead to one of the `blocks`. -/
def pointersTo (blocks slots : List Nat) : List Nat :=
  (slots.map w.pointer).filter fun p => decide (p ≠ 0 ∧ p ∈ blocks)

/-- The slots with a pointer that leads to none of the `blocks`. -/
def danglingIn (blocks slots : List Nat) : List Nat :=
  slots.filter fun s => decide (w.pointer s ≠ 0 ∧ w.pointer s ∉ blocks)

/-- The pointers of logical slots that lead to a shared block. -/
def pointers : List Nat :=
  if sb.isDedup then w.pointersTo (w.sharedBlocks sb) (w.logical sb) else []

/-- The logical slots with a pointer that leads to no shared block. -/
def dangling : List Nat :=
  if sb.isDedup then w.danglingIn (w.sharedBlocks sb) (w.logical sb) else []

/-- The number of references to a block, as far as it can be counted. -/
def actual (b : Nat) : Nat := refsTo (w.pointers sb) b

/-- The slots of the shared blocks that are referenced. -/
def kept : List Nat :=
  ((w.accepted sb).filter fun b => w.actual sb b.block ≠ 0).map (·.slot)

/-- The slots that are referenced. -/
def referenced : List Nat := w.logical sb ++ w.kept sb

/-- The slots in use that are not referenced. -/
def leakedIn (referenced slots : List Nat) : List Nat :=
  slots.filter fun s => decide (w.used s ∧ s ∉ referenced)

/-- The slots that are referenced and not in use. -/
def unmarkedIn (referenced slots : List Nat) : List Nat :=
  slots.filter fun s => decide (¬ w.used s ∧ s ∈ referenced)

/-- The report of a check. -/
def report (visit : List SharedBlock → List SharedBlock) (repair : Bool) : CheckReport where
  leakedSlots := w.leakedIn (w.referenced sb) (List.range sb.slots)
  unmarkedSlots := w.unmarkedIn (w.referenced sb) (List.range sb.slots)
  invalidEntries := slotsWhere (· = .invalid) (w.roles sb)
  duplicateKeys := slotsWhere (· = .duplicate) (w.roles sb)
  danglingPointers := w.dangling sb
  badDedupEntries := w.rejected sb
  refcountFixes :=
    (countFixes (w.pointers sb) (visit (w.accepted sb))).mergeSort fun a b => a.index ≤ b.index
  repaired := repair

end Findings

variable {w : View} {sb : Superblock} {s i : Nat}

/-! ### The classification of the slots -/

/-- A slot below `k` holds the key. -/
def Met (w : View) (k : Nat) (key : Key) : Prop := ∃ t < k, w.Active t ∧ (w.keys t).key = key

/-- The slot has the first active entry of its key. -/
def First (w : View) (s : Nat) : Prop :=
  w.Active s ∧ ∀ t < s, w.Active t → (w.keys t).key ≠ (w.keys s).key

instance (w : View) (s : Nat) : Decidable (w.First s) :=
  inferInstanceAs (Decidable (w.Active s ∧ ∀ t < s, w.Active t → (w.keys t).key ≠ (w.keys s).key))

/-- The role of one slot. -/
def roleOf (w : View) (s : Nat) : SlotRole :=
  if ¬ (w.keys s).isValid then .invalid
  else if ¬ w.Active s then .vacant
  else if w.First s then .logical
  else .duplicate

theorem Active.isValid (h : w.Active s) : (w.keys s).isValid := by
  rw [Active] at h
  simp [KeyEntry.isValid, h]

theorem met_succ {k : Nat} {key : Key} :
    w.Met (k + 1) key ↔ w.Met k key ∨ (w.Active k ∧ (w.keys k).key = key) := by
  constructor
  · rintro ⟨t, hlt, ht⟩
    by_cases htk : t = k
    · exact .inr (htk ▸ ht)
    · exact .inl ⟨t, by omega, ht⟩
  · rintro (⟨t, hlt, ht⟩ | hk)
    · exact ⟨t, by omega, ht⟩
    · exact ⟨k, Nat.lt_succ_self k, hk⟩

theorem first_iff : w.First s ↔ w.Active s ∧ ¬ w.Met s (w.keys s).key :=
  and_congr_right fun _ => ⟨fun h ⟨t, hlt, ht, hkey⟩ => h t hlt ht hkey,
    fun h t hlt ht hkey => h ⟨t, hlt, ht, hkey⟩⟩

/-- Classifying the slots from `k` on, when the keys met below `k` have been seen. -/
theorem classify_range' {seen : List Key} {k n : Nat} (hseen : ∀ key, key ∈ seen ↔ w.Met k key) :
    classify seen ((List.range' k n).map fun s => (s, w.keys s)) =
      (List.range' k n).map fun s => (s, w.roleOf s) := by
  induction n generalizing seen k with
  | zero => rfl
  | succ n ih =>
    rw [List.range'_succ, List.map_cons, List.map_cons, classify, roleOf]
    by_cases hactive : w.Active k
    · have hmatch : (w.keys k).isActive = true := hactive
      simp only [hactive.isValid, hactive, hmatch, Bool.not_true, Bool.false_eq_true, if_false,
        not_true_eq_false]
      by_cases hmem : (w.keys k).key ∈ seen
      · have hmet := (hseen _).1 hmem
        rw [if_pos hmem, if_neg fun h => (first_iff.1 h).2 hmet, ih]
        intro key
        rw [hseen, met_succ, or_iff_left_of_imp]
        rintro ⟨-, rfl⟩
        exact hmet
      · rw [if_neg hmem, if_pos (first_iff.2 ⟨hactive, fun h => hmem ((hseen _).2 h)⟩), ih]
        intro key
        rw [List.mem_cons, hseen, met_succ, or_comm, eq_comm (a := key), and_iff_right hactive]
    · have hmatch : (w.keys k).isActive = false := Bool.eq_false_iff.2 hactive
      have hseen' : ∀ key, key ∈ seen ↔ w.Met (k + 1) key := fun key => by
        rw [hseen, met_succ, or_iff_left fun h => hactive h.1]
      have hrest := ih hseen'
      by_cases hvalid : (w.keys k).isValid <;>
        simp only [hvalid, hactive, hmatch, hrest, Bool.not_true, Bool.not_false, Bool.false_eq_true,
          if_false, if_true, not_true_eq_false, not_false_eq_true]

theorem roles_eq : w.roles sb = (List.range sb.slots).map fun s => (s, w.roleOf s) := by
  rw [roles, Superblock.keyEntries, List.range_eq_range']
  exact classify_range' fun key => by simp [Met]

/-- The slots whose role passes a test. -/
theorem slotsWhere_eq (p : SlotRole → Bool) :
    slotsWhere p (w.roles sb) = (List.range sb.slots).filter fun s => p (w.roleOf s) := by
  rw [slotsWhere, roles_eq, List.filter_map, List.map_map]
  exact List.map_id _

theorem roleOf_eq_logical_iff : w.roleOf s = .logical ↔ w.First s := by
  rw [roleOf]
  by_cases hactive : w.Active s
  · simp [hactive, hactive.isValid]
  · have hfirst : ¬ w.First s := fun h => hactive h.1
    by_cases hvalid : (w.keys s).isValid <;> simp [hactive, hfirst, hvalid]

theorem roleOf_eq_invalid_iff : w.roleOf s = .invalid ↔ ¬ (w.keys s).isValid := by
  rw [roleOf]
  by_cases hvalid : (w.keys s).isValid
  · by_cases hactive : w.Active s <;> by_cases hfirst : w.First s <;> simp [hvalid, hactive, hfirst]
  · simp [hvalid]

theorem roleOf_eq_duplicate_iff : w.roleOf s = .duplicate ↔ w.Active s ∧ ¬ w.First s := by
  rw [roleOf]
  by_cases hactive : w.Active s
  · simp [hactive, hactive.isValid]
  · by_cases hvalid : (w.keys s).isValid <;> simp [hactive, hvalid]

/-- The logical slots are those with the first entry of a key. -/
theorem logical_eq_filter (w : View) (sb : Superblock) :
    w.logical sb = (List.range sb.slots).filter fun s => decide (w.First s) := by
  rw [logical, slotsWhere_eq]
  refine List.filter_congr ?_
  intro s _
  rw [decide_eq_decide, roleOf_eq_logical_iff]

theorem mem_logical : s ∈ w.logical sb ↔ s < sb.slots ∧ w.First s := by
  rw [logical_eq_filter, List.mem_filter, List.mem_range, decide_eq_true_eq]

theorem nodup_logical : (w.logical sb).Nodup := by
  rw [logical_eq_filter]
  exact List.nodup_range.filter _

/-- Where only one slot has a key, that is the logical one. -/
theorem logical_of_only (hs : s < sb.slots) (h : ∀ t, w.Active t ↔ t = s) : w.logical sb = [s] := by
  refine List.perm_singleton.1 ((List.perm_ext_iff_of_nodup nodup_logical (by simp)).2 ?_)
  intro t
  rw [mem_logical, First, h, List.mem_singleton]
  constructor
  · exact fun ht => ht.2.1
  · rintro rfl
    exact ⟨hs, rfl, fun u hu hactive => absurd ((h u).1 hactive) (Nat.ne_of_lt hu)⟩

theorem mem_discarded :
    s ∈ w.discarded sb ↔ s < sb.slots ∧ (¬ (w.keys s).isValid ∨ w.Active s ∧ ¬ w.First s) := by
  rw [discarded, slotsWhere_eq, List.mem_filter, List.mem_range, ← roleOf_eq_invalid_iff,
    ← roleOf_eq_duplicate_iff]
  cases w.roleOf s <;> simp [SlotRole.isDiscarded]

/-- Without slots to be discarded there is nothing of either kind to report. -/
theorem slotsWhere_eq_nil (h : w.discarded sb = []) (role : SlotRole) (hrole : role.isDiscarded) :
    slotsWhere (· = role) (w.roles sb) = [] := by
  refine List.eq_nil_iff_forall_not_mem.2 ?_
  intro s hs
  have hdiscarded : s ∈ w.discarded sb := by
    rw [slotsWhere_eq, List.mem_filter, decide_eq_true_eq] at hs
    rw [discarded, slotsWhere_eq, List.mem_filter, hs.2]
    exact ⟨hs.1, hrole⟩
  rw [h] at hdiscarded
  exact List.not_mem_nil hdiscarded

theorem discarded_eq_nil (hvalid : ∀ s, (w.keys s).isValid) (hfirst : ∀ {s}, w.Active s → w.First s) :
    w.discarded sb = [] := by
  refine List.eq_nil_iff_forall_not_mem.2 ?_
  intro s hs
  rcases (mem_discarded.1 hs).2 with hinvalid | ⟨hactive, hlater⟩
  · exact hinvalid (hvalid s)
  · exact hlater (hfirst hactive)

/-! ### The dedup entries -/

/-- The entry with this index holds the block of a slot without a key, and this is what it says. -/
structure Claims (w : View) (sb : Superblock) (b : SharedBlock) : Prop where
  index_lt : b.index < sb.dedupCapacity
  held : w.Held b.index
  block_eq : (w.shared b.index).block = b.block
  slot_lt : b.slot < sb.slots
  block_of : b.block = sb.dataBlock b.slot
  not_logical : b.slot ∉ w.logical sb
  content_eq : (w.shared b.index).key = b.content
  recorded_eq : (w.shared b.index).refCount.toNat = b.recorded

/-- The blocks do not get in each other's way. -/
structure Apart (a b : SharedBlock) : Prop where
  index : a.index ≠ b.index
  block : a.block ≠ b.block
  content : a.content ≠ b.content

/-- Why an active entry is rejected: its block is not that of a slot without a key, or one of the
accepted `blocks` has its block or its content. -/
def Excluded (w : View) (sb : Superblock) (blocks : List SharedBlock) (i : Nat) : Prop :=
  (∀ s < sb.slots, (w.shared i).block = sb.dataBlock s → s ∈ w.logical sb) ∨
    ∃ b ∈ blocks, b.block = (w.shared i).block ∨ b.content = (w.shared i).key

/-- What going through the entries with these indices makes of the blocks accepted before: the blocks
accepted then, and the indices of the entries rejected. -/
structure Accepts (w : View) (sb : Superblock) (acc : List SharedBlock) (indices : List Nat)
    (blocks : List SharedBlock) (bad : List Nat) : Prop where
  keep : ∀ b ∈ acc, b ∈ blocks
  source : ∀ b ∈ blocks, b ∈ acc ∨ b.index ∈ indices
  claims : ∀ b ∈ blocks, w.Claims sb b
  apart : blocks.Pairwise Apart
  mem_bad : ∀ i, i ∈ bad ↔ i ∈ indices ∧ w.Held i ∧ ∀ b ∈ blocks, b.index ≠ i
  excluded : ∀ i ∈ bad, w.Excluded sb blocks i

theorem accept?_cases (blocks : List SharedBlock) (hi : i < sb.dedupCapacity) (hheld : w.Held i) :
    (∃ b, accept? sb (w.logical sb) blocks i (w.shared i) = some b ∧ w.Claims sb b ∧ b.index = i ∧
      ∀ a ∈ blocks, a.block ≠ b.block ∧ a.content ≠ b.content) ∨
    accept? sb (w.logical sb) blocks i (w.shared i) = none ∧ w.Excluded sb blocks i := by
  rw [accept?]
  cases hslot : sb.slotOfBlock (w.shared i).block with
  | none =>
    refine .inr ⟨rfl, .inl fun s hs hblock => ?_⟩
    rw [hblock, Superblock.slotOfBlock_dataBlock hs] at hslot
    cases hslot
  | some s =>
    obtain ⟨hs, hblock⟩ := Superblock.slotOfBlock_eq_some_iff.1 hslot
    dsimp only
    split
    · rename_i hcond
      refine .inr ⟨rfl, ?_⟩
      rcases hcond with hlogical | hmem | hmem
      · refine .inl ?_
        intro t _ ht
        have hst : s = t := Superblock.dataBlock_inj (hblock.symm.trans ht)
        exact hst ▸ hlogical
      · obtain ⟨b, hb, heq⟩ := List.mem_map.1 hmem
        exact .inr ⟨b, hb, .inl heq⟩
      · obtain ⟨b, hb, heq⟩ := List.mem_map.1 hmem
        exact .inr ⟨b, hb, .inr heq⟩
    · rename_i hcond
      rw [not_or, not_or] at hcond
      obtain ⟨hlogical, hblocks, hcontents⟩ := hcond
      exact .inl ⟨_, rfl, ⟨hi, hheld, rfl, hs, hblock, hlogical, rfl, rfl⟩, rfl,
        fun a ha => ⟨fun h => hblocks (List.mem_map.2 ⟨a, ha, h⟩),
          fun h => hcontents (List.mem_map.2 ⟨a, ha, h⟩)⟩⟩

namespace Accepts

variable {acc blocks : List SharedBlock} {indices bad : List Nat} {b : SharedBlock}

theorem skip (h : w.Accepts sb acc indices blocks bad) (hidle : ¬ w.Held i) :
    w.Accepts sb acc (i :: indices) blocks bad := by
  refine ⟨h.keep, fun a ha => (h.source a ha).imp_right (List.mem_cons_of_mem _), h.claims, h.apart,
    fun j => ?_, h.excluded⟩
  rw [h.mem_bad, List.mem_cons]
  refine and_congr_left fun hj => (or_iff_right ?_).symm
  rintro rfl
  exact hidle hj.1

theorem take (h : w.Accepts sb (acc ++ [b]) indices blocks bad) :
    w.Accepts sb acc (b.index :: indices) blocks bad := by
  refine ⟨fun a ha => h.keep a (List.mem_append_left _ ha), ?_, h.claims, h.apart,
    ?_, h.excluded⟩
  · intro a ha
    rcases h.source a ha with ha | ha
    · rcases List.mem_append.1 ha with ha | ha
      · exact .inl ha
      · rw [List.mem_singleton.1 ha]
        exact .inr List.mem_cons_self
    · exact .inr (List.mem_cons_of_mem _ ha)
  · intro j
    rw [h.mem_bad, List.mem_cons]
    refine and_congr_left fun hj => (or_iff_right ?_).symm
    rintro rfl
    exact hj.2 b (h.keep b (List.mem_append_right _ List.mem_cons_self)) rfl

theorem reject (h : w.Accepts sb acc indices blocks bad) (hheld : w.Held i)
    (hacc : ∀ b ∈ acc, b.index ≠ i) (hi : i ∉ indices) (hexcluded : w.Excluded sb acc i) :
    w.Accepts sb acc (i :: indices) blocks (i :: bad) := by
  have hblocks : ∀ b ∈ blocks, b.index ≠ i := by
    rintro b hb rfl
    rcases h.source b hb with hb | hb
    · exact hacc b hb rfl
    · exact hi hb
  refine ⟨h.keep, fun a ha => (h.source a ha).imp_right (List.mem_cons_of_mem _), h.claims, h.apart,
    ?_, ?_⟩
  · intro j
    rw [List.mem_cons, List.mem_cons, h.mem_bad, or_and_right]
    refine or_congr_left (iff_self_and.2 ?_)
    rintro rfl
    exact ⟨hheld, hblocks⟩
  · intro j hj
    rcases List.mem_cons.1 hj with rfl | hj
    · exact hexcluded.imp_right fun ⟨b, hb, heq⟩ => ⟨b, h.keep b hb, heq⟩
    · exact h.excluded j hj

end Accepts

theorem accepts_acceptEntries {acc : List SharedBlock} {indices : List Nat}
    (hlt : ∀ i ∈ indices, i < sb.dedupCapacity) (hnodup : indices.Nodup)
    (hclaims : ∀ b ∈ acc, w.Claims sb b) (hapart : acc.Pairwise Apart)
    (hfresh : ∀ b ∈ acc, b.index ∉ indices) :
    w.Accepts sb acc indices
      (acceptEntries sb (w.logical sb) acc (indices.map fun i => (i, w.shared i))).1
      (acceptEntries sb (w.logical sb) acc (indices.map fun i => (i, w.shared i))).2 := by
  induction indices generalizing acc with
  | nil =>
    exact ⟨fun _ h => h, fun _ h => .inl h, hclaims, hapart, fun i => by simp [acceptEntries],
      fun _ h => absurd h List.not_mem_nil⟩
  | cons i indices ih =>
    rw [List.nodup_cons] at hnodup
    have hlt' : ∀ j ∈ indices, j < sb.dedupCapacity := fun j hj => hlt j (List.mem_cons_of_mem _ hj)
    have hi : ∀ b ∈ acc, b.index ≠ i := fun b hb h => hfresh b hb (h ▸ List.mem_cons_self)
    have hfresh' : ∀ b ∈ acc, b.index ∉ indices := fun b hb hmem =>
      hfresh b hb (List.mem_cons_of_mem _ hmem)
    have hrest := ih hlt' hnodup.2 hclaims hapart hfresh'
    rw [List.map_cons, acceptEntries]
    by_cases hheld : w.Held i
    · rw [if_pos (show (w.shared i).isActive = true from hheld)]
      rcases accept?_cases acc (hlt i List.mem_cons_self) hheld with
        ⟨b, hsome, hb, rfl, hacc⟩ | ⟨hnone, hexcluded⟩
      · rw [hsome]
        refine Accepts.take (ih hlt' hnodup.2 ?_ ?_ ?_)
        · intro a ha
          rcases List.mem_append.1 ha with ha | ha
          · exact hclaims a ha
          · exact List.mem_singleton.1 ha ▸ hb
        · refine List.pairwise_append.2 ⟨hapart, List.pairwise_singleton _ _, fun a ha c hc => ?_⟩
          obtain rfl := List.mem_singleton.1 hc
          exact ⟨hi a ha, (hacc a ha).1, (hacc a ha).2⟩
        · intro a ha
          rcases List.mem_append.1 ha with ha | ha
          · exact hfresh' a ha
          · exact List.mem_singleton.1 ha ▸ hnodup.1
      · rw [hnone]
        exact hrest.reject hheld hi hnodup.1 hexcluded
    · rw [if_neg (show ¬ (w.shared i).isActive = true from hheld)]
      exact hrest.skip hheld

/-- Entries at the end that hold no block are neither accepted nor rejected. -/
theorem acceptEntries_append_of_idle {logical : List Nat} {blocks : List SharedBlock}
    {entries idle : List (Nat × DedupEntry)} (hidle : ∀ p ∈ idle, p.2.isActive = false) :
    acceptEntries sb logical blocks (entries ++ idle) = acceptEntries sb logical blocks entries := by
  induction entries generalizing blocks with
  | nil =>
    rw [List.nil_append]
    induction idle with
    | nil => rfl
    | cons p idle ih =>
      simp only [acceptEntries, hidle p List.mem_cons_self, Bool.false_eq_true, if_false]
      exact ih fun q hq => hidle q (List.mem_cons_of_mem _ hq)
  | cons p entries ih => simp only [List.cons_append, acceptEntries, ih]

/-- Only the part of the table counts in which entries hold blocks. -/
theorem acceptEntries_sharedEntries {n : Nat} (hn : n ≤ sb.dedupCapacity) (hidle : ∀ i, n ≤ i → ¬ w.Held i)
    (logical : List Nat) : acceptEntries sb logical [] (sb.sharedEntries w) =
      acceptEntries sb logical [] ((List.range n).map fun i => (i, w.shared i)) := by
  obtain ⟨m, hm⟩ := Nat.exists_eq_add_of_le hn
  rw [Superblock.sharedEntries, hm, List.range_add, List.map_append, List.map_map]
  refine acceptEntries_append_of_idle fun p hp => ?_
  obtain ⟨i, -, rfl⟩ := List.mem_map.1 hp
  exact Bool.eq_false_iff.2 (hidle (n + i) (Nat.le_add_right n i))

/-- What is known of the accepted and the rejected entries. -/
theorem accepts (w : View) (sb : Superblock) :
    w.Accepts sb [] (List.range sb.dedupCapacity) (w.accepted sb) (w.rejected sb) :=
  accepts_acceptEntries (fun _ hi => List.mem_range.1 hi) List.nodup_range (by simp) .nil (by simp)

theorem claims_of_mem {b : SharedBlock} (hb : b ∈ w.accepted sb) : w.Claims sb b :=
  (w.accepts sb).claims b hb

theorem mem_rejected : i ∈ w.rejected sb ↔
    i < sb.dedupCapacity ∧ w.Held i ∧ ∀ b ∈ w.accepted sb, b.index ≠ i := by
  rw [(w.accepts sb).mem_bad, List.mem_range]

theorem eq_or_apart {a b : SharedBlock} (ha : a ∈ w.accepted sb) (hb : b ∈ w.accepted sb) :
    a = b ∨ Apart a b := by
  have hall := (w.accepts sb).apart
  exact List.Pairwise.forall_of_forall_of_flip (R := fun a b => a = b ∨ Apart a b)
    (fun _ _ => .inl rfl) (hall.imp .inr)
    (hall.imp fun h => .inr ⟨h.index.symm, h.block.symm, h.content.symm⟩) ha hb

/-- No entry is visited twice. -/
theorem nodup_visited {visit : List SharedBlock → List SharedBlock} (hvisit : ∀ l, (visit l).Perm l) :
    ((visit (w.accepted sb)).map (·.index)).Nodup := by
  refine (((hvisit _).map _).nodup_iff).2 (List.pairwise_map.2 ?_)
  exact (w.accepts sb).apart.imp fun h => h.index

/-- The dedup entries do not get in each other's way. -/
structure Shareable (w : View) (sb : Superblock) : Prop where
  home : ∀ {i}, w.Held i → ∃ s < sb.slots, (w.shared i).block = sb.dataBlock s ∧ s ∉ w.logical sb
  block_inj : ∀ {i j}, w.Held i → w.Held j → (w.shared i).block = (w.shared j).block → i = j
  content_inj : ∀ {i j}, w.Held i → w.Held j → (w.shared i).key = (w.shared j).key → i = j

theorem Shareable.rejected_eq_nil (h : w.Shareable sb) : w.rejected sb = [] := by
  refine List.eq_nil_iff_forall_not_mem.2 ?_
  intro i hi
  obtain ⟨-, hheld, hother⟩ := mem_rejected.1 hi
  rcases (w.accepts sb).excluded i hi with hhome | ⟨b, hb, heq⟩
  · obtain ⟨s, hs, hblock, hnot⟩ := h.home hheld
    exact hnot (hhome s hs hblock)
  · have hclaims := claims_of_mem hb
    refine hother b hb ?_
    rcases heq with heq | heq
    · exact h.block_inj hclaims.held hheld (hclaims.block_eq.trans heq)
    · exact h.content_inj hclaims.held hheld (hclaims.content_eq.trans heq)

/-- Where none is rejected, every active entry is accepted. -/
theorem Shareable.exists_accepted (h : w.Shareable sb) (hi : i < sb.dedupCapacity) (hheld : w.Held i) :
    ∃ b ∈ w.accepted sb, b.index = i := by
  have hnot : i ∉ w.rejected sb := by
    rw [h.rejected_eq_nil]
    exact List.not_mem_nil
  rw [mem_rejected] at hnot
  simpa [hi, hheld] using hnot

/-! ### Counting references -/

theorem mem_dangling : s ∈ w.dangling sb ↔
    sb.isDedup ∧ s ∈ w.logical sb ∧ w.pointer s ≠ 0 ∧ w.pointer s ∉ w.sharedBlocks sb := by
  rw [dangling]
  by_cases hd : sb.isDedup
  · rw [if_pos hd, danglingIn, List.mem_filter, decide_eq_true_eq, and_iff_right hd]
  · rw [if_neg hd]
    simp [hd]

/-- A pointer that is there and does not dangle leads to a shared block. -/
theorem exists_block_of_not_dangling (hd : sb.isDedup) (hs : s ∈ w.logical sb)
    (hkept : s ∉ w.dangling sb) (hne : w.pointer s ≠ 0) :
    ∃ b ∈ w.accepted sb, b.block = w.pointer s := by
  have hmem : w.pointer s ∈ w.sharedBlocks sb :=
    Classical.byContradiction fun hno => hkept (mem_dangling.2 ⟨hd, hs, hne, hno⟩)
  exact List.mem_map.1 hmem

theorem count_pointersTo {blocks slots : List Nat} {b : Nat} (hb : b ∈ blocks) (h0 : b ≠ 0) :
    (w.pointersTo blocks slots).count b = slots.countP fun s => decide (w.pointer s = b) := by
  rw [pointersTo, List.count_filter (by simp [hb, h0]), List.count_eq_countP, List.countP_map]
  refine List.countP_congr ?_
  intro s _
  simp

variable {length : Nat} {b : SharedBlock}

theorem Claims.isDedup (h : w.Claims sb b) : sb.isDedup := by
  have hlt := h.index_lt
  rw [Superblock.dedupCapacity, Superblock.dedupBlocks] at hlt
  by_cases hd : sb.isDedup
  · exact hd
  · rw [if_neg hd] at hlt
    omega

/-- What is known of an accepted entry determines it. -/
theorem Claims.eq_of_index_eq {a : SharedBlock} (ha : w.Claims sb a) (hb : w.Claims sb b)
    (h : a.index = b.index) : a = b := by
  have hblock : a.block = b.block := ha.block_eq.symm.trans (h ▸ hb.block_eq)
  have hslot : a.slot = b.slot :=
    Superblock.dataBlock_inj (ha.block_of.symm.trans (hblock.trans hb.block_of))
  have hcontent : a.content = b.content := ha.content_eq.symm.trans (h ▸ hb.content_eq)
  have hrecorded : a.recorded = b.recorded := ha.recorded_eq.symm.trans (h ▸ hb.recorded_eq)
  cases a
  cases b
  simp_all

theorem Claims.block_ne_zero (hfits : sb.Fits length) (h : w.Claims sb b) : b.block ≠ 0 := by
  have := hfits.one_le_dataStart
  rw [h.block_of, Superblock.dataBlock]
  omega

/-- The number of logical slots that point at a block. -/
def logicalRefs (w : View) (sb : Superblock) (b : Nat) : Nat :=
  (w.logical sb).countP fun s => decide (w.pointer s = b)

theorem actual_eq (hfits : sb.Fits length) (hb : b ∈ w.accepted sb) :
    w.actual sb b.block = min (w.logicalRefs sb b.block) 65535 := by
  have hclaims := claims_of_mem hb
  have hmem : b.block ∈ w.sharedBlocks sb := List.mem_map.2 ⟨b, hb, rfl⟩
  rw [actual, refsTo, pointers, if_pos hclaims.isDedup,
    count_pointersTo hmem (hclaims.block_ne_zero hfits)]
  rfl

theorem actual_ne_zero_iff (hfits : sb.Fits length) (hb : b ∈ w.accepted sb) :
    w.actual sb b.block ≠ 0 ↔ ∃ s ∈ w.logical sb, w.pointer s = b.block := by
  have hpos : w.actual sb b.block ≠ 0 ↔ 0 < w.logicalRefs sb b.block := by
    rw [actual_eq hfits hb]
    omega
  rw [hpos, logicalRefs, List.countP_pos_iff]
  simp

theorem mem_kept (hfits : sb.Fits length) : s ∈ w.kept sb ↔
    ∃ b ∈ w.accepted sb, b.slot = s ∧ ∃ t ∈ w.logical sb, w.pointer t = b.block := by
  rw [kept, List.mem_map]
  refine exists_congr ?_
  intro b
  rw [List.mem_filter, decide_eq_true_eq, and_assoc]
  exact and_congr_right fun hb => by rw [actual_ne_zero_iff hfits hb, and_comm]

/-- Where every active slot is the first of its key, all pointers are counted. -/
theorem logicalRefs_eq (hfirst : ∀ {s}, w.Active s → w.First s) (b : Nat) :
    w.logicalRefs sb b = w.refs sb b := by
  have hlogical : w.logical sb = (List.range sb.slots).filter fun s => decide (w.Active s) := by
    rw [logical_eq_filter]
    refine List.filter_congr ?_
    intro s _
    rw [decide_eq_decide]
    exact ⟨fun h => h.1, fun h => hfirst h⟩
  rw [logicalRefs, hlogical, List.countP_filter, refs]
  refine List.countP_congr ?_
  intro s _
  simp [and_comm]

end View

end BlockStore
