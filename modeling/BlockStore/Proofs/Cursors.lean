import BlockStore.Proofs.Format
import BlockStore.Proofs.Queries
import Mathlib.Algebra.GroupWithZero.Nat
import Mathlib.Data.List.Find

/-!
# Scans and reads of single entries

A scan takes the entries of a table out of the block that it has read last, and reads another block where
one begins. So it rests on a position in the table, a block, and whether that is the block of the position.
Reading one entry computes its block from its index. The two agree, whatever the blocks hold and whichever
of them can be read, and everything that searches a table can be stated by index.

A scan of the key table ends with the first error. One of the dedup table goes on after an error; only what
searches that table stops there, so nothing is said of it unless all blocks can be read.

## Main definitions

* `Yields`: the items that an iterator hands out before it ends.
* `KeyTable.Cursor`, `KeyTable.advance`, `advanceActive`: a scan of the key table on its way, and a step of
  it and of the scan for keys.
* `KeyTable.Scanned`: the slots that can be read one after the other, and what stands in the way of more.

## Main results

* `KeyTable.yields_entries`, `yields_activeKeys`: the steps of a scan hand out `entries` and `activeKeys`.
* `KeyTable.Scanned.entries_eq`, `activeKeys_eq`, `lookup_eq`: scans of the key table, slot by slot.
* `DedupTable.entries_eq`, `locate_eq`, `stats_eq`: scans of the dedup table, index by index.
* `scans_agree_with_reads`: all of this for every device.
-/

namespace BlockStore

/-- The iterator hands out the items of a list, and then it has ended. -/
inductive Yields {σ α : Type} (next : σ → Option (α × σ)) : σ → List α → Prop where
  | done {s : σ} (h : next s = none) : Yields next s []
  | item {s s' : σ} {a : α} {l : List α} (h : next s = some (a, s')) (rest : Yields next s' l) :
      Yields next s (a :: l)

/-- What an iterator hands out is a matter of its first step. -/
theorem Yields.of_eq {σ α : Type} {next : σ → Option (α × σ)} {s s' : σ} {l : List α}
    (h : Yields next s l) (hnext : next s' = next s) : Yields next s' l := by
  cases h with
  | done h => exact .done (hnext.trans h)
  | item h rest => exact .item (hnext.trans h) rest

/-- The items of a scan, and the error that it ends with if there is one. -/
def scanList {α : Type} (items : List α) (stop : Option StoreError) : List (Except StoreError α) :=
  items.map .ok ++ (stop.map .error).toList

namespace KeyTable

/-! ### The steps of a scan -/

/-- A scan of the key table on its way. -/
structure Cursor where
  /-- The next slot. -/
  next : Nat
  /-- The block that was read last. -/
  buffer : Option Block
  /-- A block could not be read. -/
  failed : Bool

/-- The scan that has not begun. -/
def Cursor.start : Cursor := ⟨0, none, false⟩

/-- The block that the next entry is taken from: the one read last, unless another one begins. -/
def fetch (t : KeyTable) (d : Device) (c : Cursor) : Except StoreError Block :=
  match c.buffer with
  | some b =>
    if c.next % recordsPerBlock = 0 then d.readBlock (t.start + c.next / recordsPerBlock) else .ok b
  | none => d.readBlock (t.start + c.next / recordsPerBlock)

/-- A step of a scan: the next slot with its entry, or the error of reading its block, after which the scan
has ended. -/
def advance (t : KeyTable) (d : Device) (c : Cursor) :
    Option (Except StoreError (Nat × KeyEntry) × Cursor) :=
  if c.failed || t.slots ≤ c.next then none
  else
    match t.fetch d c with
    | .error e => some (.error e, { c with failed := true })
    | .ok b =>
      some (.ok (c.next, .ofRecord (b.record (c.next % recordsPerBlock))), ⟨c.next + 1, some b, false⟩)

variable {t : KeyTable} {d : Device} {c c' : Cursor}

theorem next_of_advance {item : Nat × KeyEntry} (h : t.advance d c = some (.ok item, c')) :
    c.next < t.slots ∧ c'.next = c.next + 1 := by
  rw [advance] at h
  split at h
  case isTrue => cases h
  case isFalse hgoing =>
    simp only [Bool.or_eq_true, decide_eq_true_eq, not_or, Nat.not_le] at hgoing
    split at h
    · cases h
    · cases h
      exact ⟨hgoing.2, rfl⟩

/-- A step of the scan for keys, which passes over the entries that are not active. -/
def advanceActive (t : KeyTable) (d : Device) (c : Cursor) :
    Option (Except StoreError (Nat × Key) × Cursor) :=
  match _h : t.advance d c with
  | none => none
  | some (.error e, c') => some (.error e, c')
  | some (.ok (slot, e), c') =>
    if e.isActive then some (.ok (slot, e.key), c') else t.advanceActive d c'
termination_by t.slots - c.next
decreasing_by
  have := next_of_advance _h
  omega

theorem advanceActive_of_error {e : StoreError} (h : t.advance d c = some (.error e, c')) :
    t.advanceActive d c = some (.error e, c') := by
  rw [advanceActive]
  split <;> simp_all

theorem advanceActive_of_ok {s : Nat} {e : KeyEntry} (h : t.advance d c = some (.ok (s, e), c')) :
    t.advanceActive d c = if e.isActive then some (.ok (s, e.key), c') else t.advanceActive d c' := by
  rw [advanceActive]
  split <;> simp_all

/-- The scan for keys hands out the active part of what the scan hands out. -/
theorem yields_activeOf {l : List (Except StoreError (Nat × KeyEntry))}
    (h : Yields (t.advance d) c l) : Yields (t.advanceActive d) c (activeOf l) := by
  induction h with
  | done h =>
    refine .done ?_
    rw [advanceActive]
    split <;> simp_all
  | @item c c' item l h _ ih =>
    cases item with
    | error e => exact .item (advanceActive_of_error h) ih
    | ok item =>
      obtain ⟨s, e⟩ := item
      have hnext := advanceActive_of_ok h
      by_cases hactive : e.isActive
      · rw [if_pos hactive] at hnext
        rw [activeOf, if_pos hactive]
        exact .item hnext ih
      · rw [if_neg hactive] at hnext
        rw [activeOf, if_neg hactive]
        exact ih.of_eq hnext

/-- The scan is going on, and it has the block of its next slot unless that slot is the first of one. -/
structure Cursor.Valid (c : Cursor) (t : KeyTable) (d : Device) : Prop where
  going : c.failed = false
  held : c.next % recordsPerBlock ≠ 0 →
    ∃ b, c.buffer = some b ∧ d.readBlock (t.start + c.next / recordsPerBlock) = .ok b

theorem Cursor.valid_start : Cursor.start.Valid t d := ⟨rfl, fun h => absurd rfl h⟩

theorem Cursor.Valid.fetch_eq (h : c.Valid t d) :
    t.fetch d c = d.readBlock (t.start + c.next / recordsPerBlock) := by
  rw [fetch]
  by_cases hfirst : c.next % recordsPerBlock = 0
  · cases c.buffer with
    | some _ => exact if_pos hfirst
    | none => rfl
  · obtain ⟨b, hbuffer, hread⟩ := h.held hfirst
    rw [hbuffer, hread]
    exact if_neg hfirst

/-- A step of a scan is a read of one entry. -/
theorem Cursor.Valid.advance_of_ok (h : c.Valid t d) (hlt : c.next < t.slots) {e : KeyEntry}
    (he : t.entry d c.next = .ok e) :
    ∃ c', t.advance d c = some (.ok (c.next, e), c') ∧ c'.Valid t d ∧ c'.next = c.next + 1 := by
  rw [entry_of_lt hlt] at he
  cases hread : d.readBlock (t.start + c.next / recordsPerBlock) with
  | error _ =>
    rw [hread] at he
    cases he
  | ok b =>
    rw [hread] at he
    obtain rfl : .ofRecord (b.record (c.next % recordsPerBlock)) = e := Except.ok.inj he
    refine ⟨⟨c.next + 1, some b, false⟩, ?_, ⟨rfl, fun hheld => ⟨b, rfl, ?_⟩⟩, rfl⟩
    · simp [advance, h.going, h.fetch_eq, hread, Nat.not_le.2 hlt]
    · -- The position is inside the block that was read.
      have hsame : (c.next + 1) / recordsPerBlock = c.next / recordsPerBlock := by
        simp only [show recordsPerBlock = 128 from rfl] at hheld ⊢
        omega
      rw [hsame, hread]

theorem Cursor.Valid.advance_of_error (h : c.Valid t d) (hlt : c.next < t.slots) {e : StoreError}
    (he : t.entry d c.next = .error e) : t.advance d c = some (.error e, { c with failed := true }) := by
  rw [entry_of_lt hlt] at he
  cases hread : d.readBlock (t.start + c.next / recordsPerBlock) with
  | error _ =>
    rw [hread] at he
    cases he
    simp [advance, h.going, h.fetch_eq, hread, Nat.not_le.2 hlt]
  | ok b =>
    rw [hread] at he
    cases he

/-- The steps of a scan hand out the entries slot by slot. -/
theorem Cursor.Valid.yields (h : c.Valid t d) :
    Yields (t.advance d) c (t.readSlots d (List.range' c.next (t.slots - c.next))) := by
  induction hn : t.slots - c.next generalizing c with
  | zero =>
    refine .done ?_
    rw [advance, if_pos]
    simp only [Bool.or_eq_true, decide_eq_true_eq]
    omega
  | succ n ih =>
    have hlt : c.next < t.slots := by omega
    rw [List.range'_succ, readSlots]
    cases he : t.entry d c.next with
    | ok e =>
      obtain ⟨c', hstep, hvalid, hnext⟩ := h.advance_of_ok hlt he
      have hrest := ih hvalid (by omega)
      rw [hnext] at hrest
      exact .item hstep hrest
    | error e => exact .item (h.advance_of_error hlt he) (.done rfl)

/-- The steps of a scan hand out the list of entries. -/
theorem yields_entries : Yields (t.advance d) .start (t.entries d) := by
  have hall := Cursor.valid_start.yields (t := t) (d := d)
  rwa [Cursor.start, Nat.sub_zero, ← List.range_eq_range', ← entries_eq_readSlots] at hall

/-- The steps of a scan for keys hand out the list of keys. -/
theorem yields_activeKeys : Yields (t.advanceActive d) .start (t.activeKeys d) :=
  yields_activeOf yields_entries

/-- The slots below `n` can be read and have the entries `f`. There are no more, or the block of the next
one cannot be read, which is the error `stop`. -/
structure Scanned (t : KeyTable) (d : Device) (n : Nat) (f : Nat → KeyEntry) (stop : Option StoreError) :
    Prop where
  read : ∀ s < n, t.entry d s = .ok (f s)
  le : n ≤ t.slots
  complete : stop = none → n = t.slots
  stopped : ∀ e, stop = some e → n < t.slots ∧ t.entry d n = .error e ∧
    d.readBlock (t.start + n / recordsPerBlock) = .error e

/-- Every table on every device can be read up to some slot. -/
theorem exists_scanned (t : KeyTable) (d : Device) : ∃ n f stop, t.Scanned d n f stop := by
  have hprefix : ∀ m ≤ t.slots, ∃ n ≤ m, (∀ s < n, ∃ e, t.entry d s = .ok e) ∧
      (n = m ∨ ∃ e, t.entry d n = .error e) := by
    intro m
    induction m with
    | zero => exact fun _ => ⟨0, Nat.le_refl _, nofun, .inl rfl⟩
    | succ m ih =>
      intro hm
      obtain ⟨n, hn, hread, rfl | hstop⟩ := ih (by omega)
      · cases he : t.entry d n with
        | error e => exact ⟨n, by omega, hread, .inr ⟨e, he⟩⟩
        | ok e =>
          refine ⟨n + 1, Nat.le_refl _, fun s hs => ?_, .inl rfl⟩
          rcases Nat.lt_succ_iff_lt_or_eq.1 hs with hs | rfl
          · exact hread s hs
          · exact ⟨e, he⟩
      · exact ⟨n, by omega, hread, .inr hstop⟩
  obtain ⟨n, hn, hread, hstop⟩ := hprefix t.slots (Nat.le_refl _)
  have hf : ∀ s < n, t.entry d s = .ok ((t.entry d s).toOption.getD .free) := by
    intro s hs
    obtain ⟨e, he⟩ := hread s hs
    rw [he]
    rfl
  by_cases hall : n = t.slots
  · exact ⟨n, _, none, hf, hn, fun _ => hall, nofun⟩
  · obtain ⟨e, he⟩ := hstop.resolve_left hall
    have hlt : n < t.slots := by omega
    refine ⟨n, _, some e, hf, hn, nofun, ?_⟩
    rintro _ ⟨⟩
    have hblock := he
    rw [entry_of_lt hlt] at hblock
    cases hread : d.readBlock (t.start + n / recordsPerBlock) with
    | ok b =>
      rw [hread] at hblock
      cases hblock
    | error e' =>
      rw [hread] at hblock
      cases hblock
      exact ⟨hlt, he, rfl⟩

namespace Scanned

variable {n : Nat} {f : Nat → KeyEntry} {stop : Option StoreError}

/-- The entries of the slots that can be read, in order and each once, and then one error unless these are
all slots. -/
theorem entries_eq (h : t.Scanned d n f stop) :
    t.entries d = scanList ((List.range n).map fun s => (s, f s)) stop := by
  have hread : ∀ s ∈ List.range n, t.entry d s = .ok (f s) := fun s hs => h.read s (List.mem_range.1 hs)
  rw [entries_eq_readSlots, scanList, List.map_map]
  cases hstop : stop with
  | none =>
    have hall := readSlots_append hread []
    rw [List.append_nil] at hall
    rw [← h.complete hstop]
    exact hall
  | some e =>
    obtain ⟨hlt, he, -⟩ := h.stopped e hstop
    obtain ⟨m, hm⟩ : ∃ m, t.slots = n + (m + 1) := ⟨t.slots - n - 1, by omega⟩
    rw [hm, List.range_eq_range', ← List.range'_append_1, ← List.range_eq_range', readSlots_append hread,
      Nat.zero_add, List.range'_succ, readSlots, he]
    rfl

theorem activeOf_scanList (l : List Nat) :
    activeOf (scanList (l.map fun s => (s, f s)) stop) =
      scanList ((l.filter fun s => (f s).isActive).map fun s => (s, (f s).key)) stop := by
  induction l with
  | nil => cases stop <;> rfl
  | cons s l ih =>
    have hcons : scanList ((s :: l).map fun s => (s, f s)) stop =
        .ok (s, f s) :: scanList (l.map fun s => (s, f s)) stop := rfl
    rw [hcons, activeOf, ih, List.filter_cons]
    split <;> rfl

/-- The active part of the entries, in order. -/
theorem activeKeys_eq (h : t.Scanned d n f stop) :
    t.activeKeys d =
      scanList (((List.range n).filter fun s => (f s).isActive).map fun s => (s, (f s).key)) stop := by
  rw [activeKeys, h.entries_eq, activeOf_scanList]

theorem findKey_scanList (key : Key) (l : List Nat) :
    findKey key (scanList ((l.filter fun s => (f s).isActive).map fun s => (s, (f s).key)) stop) =
      match l.find? fun s => (f s).isActive && (f s).key == key with
      | some s => .ok s
      | none => .error (stop.getD (.notFound (.key key))) := by
  induction l with
  | nil => cases stop <;> rfl
  | cons s l ih =>
    rw [scanList] at ih
    rw [List.filter_cons, List.find?_cons, scanList]
    by_cases hactive : (f s).isActive
    · by_cases hkey : (f s).key = key
      · simp [hactive, hkey, findKey]
      · simpa [hactive, hkey, findKey, beq_eq_false_iff_ne.2 hkey] using ih
    · simpa [hactive] using ih

/-- The lowest active slot that holds the key, of those before the error. -/
theorem lookup_eq (h : t.Scanned d n f stop) (key : Key) :
    t.lookup d key = match (List.range n).find? fun s => (f s).isActive && (f s).key == key with
      | some s => .ok s
      | none => .error (stop.getD (.notFound (.key key))) := by
  rw [lookup, h.activeKeys_eq, findKey_scanList]

end Scanned

end KeyTable

/-! ### The dedup table -/

namespace DedupTable

variable {t : DedupTable} {d : Device} {f : Nat → DedupEntry}

/-- The table that a scan sees if every block can be read. -/
theorem entries_eq (h : ∀ k < t.blocks, ∃ b, d.readBlock (t.start + k) = .ok b) :
    (∀ i < t.capacity, t.entry d i = .ok (t.entryAt d.image i)) ∧
      t.entries d = ((List.range t.capacity).map fun i => (i, t.entryAt d.image i)).map .ok := by
  have hread : ∀ k < t.blocks, d.readBlock (t.start + k) = .ok (d.image.block (t.start + k)) := by
    intro k hk
    obtain ⟨b, hb⟩ := h k hk
    rw [hb, Device.eq_of_readBlock hb]
  constructor
  · intro i hi
    have hblock := hread _ ((Nat.div_lt_iff_lt_mul (by decide)).2 hi)
    simp only [entry, RecordTable.read, RecordTable.blockOf, records, hblock, bind, Except.bind, pure,
      Except.pure, entryAt]
  · exact (reads_entries (r := True) fun k hk => .inl (hread k hk)).eq_map_ok trivial

/-- Scanning from an index on. The free entry handed out is the one met before, or else the lowest among
those that were looked at in vain. -/
theorem locateIn_range' (c : Criterion) (f : Nat → DedupEntry) (n m : Nat) (free : Option Nat) :
    locateIn c (((List.range' n m).map fun i => (i, f i)).map .ok) free =
      .ok (match (List.range' n m).find? fun i => c.accepts (f i) with
        | some i => ⟨some (i, f i), free.or ((List.range' n (i - n)).find? fun j => !(f j).isActive)⟩
        | none => ⟨none, free.or ((List.range' n m).find? fun j => !(f j).isActive)⟩) := by
  induction m generalizing n free with
  | zero => simp [locateIn]
  | succ m ih =>
    rw [List.range'_succ, List.map_cons, List.map_cons, locateIn, List.find?_cons]
    by_cases haccepts : c.accepts (f n)
    · simp [haccepts]
    · have hfree (l : List Nat) : (if free.isNone && (f n).isFree then some n else free).or
          (l.find? fun j => !(f j).isActive) = free.or ((n :: l).find? fun j => !(f j).isActive) := by
        cases free with
        | some _ => rfl
        | none => cases hactive : (f n).isActive <;> simp [DedupEntry.isFree, hactive]
      rw [if_neg haccepts, ih, Bool.eq_false_iff.2 haccepts]
      cases hfound : (List.range' (n + 1) m).find? fun i => c.accepts (f i) with
      | none => simp only [hfree]
      | some i =>
        have hle := (List.mem_range'_1.1 (List.mem_of_find?_eq_some hfound)).1
        have hlist : List.range' n (i - n) = n :: List.range' (n + 1) (i - (n + 1)) := by
          rw [← List.range'_succ]
          congr 1
          omega
        simp only [hfree, hlist]

/-- The lowest entry that is looked for, and the lowest one below it that is not active. -/
theorem locate_eq (h : t.entries d = ((List.range t.capacity).map fun i => (i, f i)).map .ok)
    (c : Criterion) :
    t.locate d c = .ok (match (List.range t.capacity).find? fun i => c.accepts (f i) with
      | some i => ⟨some (i, f i), (List.range i).find? fun j => !(f j).isActive⟩
      | none => ⟨none, (List.range t.capacity).find? fun j => !(f j).isActive⟩) := by
  have hall := locateIn_range' c f 0 t.capacity none
  simp only [Nat.sub_zero, Option.none_or, ← List.range_eq_range'] at hall
  rw [locate_eq_locateIn, h, hall]

theorem countRefs_map_ok (f : Nat → DedupEntry) (l : List Nat) :
    countRefs ((l.map fun i => (i, f i)).map .ok) =
      .ok ((l.filter fun i => (f i).isActive).length,
        ((l.filter fun i => (f i).isActive).map fun i => (f i).refCount.toNat).sum) := by
  induction l with
  | nil => rfl
  | cons i l ih =>
    rw [List.map_cons, List.map_cons, countRefs, ih, List.filter_cons]
    by_cases hactive : (f i).isActive
    · simp [hactive, bind, Except.bind, pure, Except.pure, Nat.add_comm]
    · simp [hactive, bind, Except.bind, pure, Except.pure]

/-- The figures of the active entries. -/
theorem stats_eq (h : t.entries d = ((List.range t.capacity).map fun i => (i, f i)).map .ok) :
    t.stats d =
      let active := (List.range t.capacity).filter fun i => (f i).isActive
      let refs := (active.map fun i => (f i).refCount.toNat).sum
      .ok ⟨t.capacity, active.length, refs, (refs - active.length) * blockSize⟩ := by
  rw [stats_eq_countRefs, h, countRefs_map_ok]
  rfl

theorem sum_refCounts_le (f : Nat → DedupEntry) (l : List Nat) :
    (l.map fun i => (f i).refCount.toNat).sum ≤ l.length * 2 ^ 16 := by
  induction l with
  | nil => exact Nat.zero_le _
  | cons i l ih =>
    have hcount := (f i).refCount.toNat_lt
    rw [List.map_cons, List.sum_cons, List.length_cons, Nat.succ_mul]
    omega

/-- No figure of a table with 32-bit indices leaves 64 bits. -/
theorem refs_lt (h : t.capacity ≤ 2 ^ 32) (p : Nat → Bool) :
    (((List.range t.capacity).filter p).map fun i => (f i).refCount.toNat).sum * blockSize < 2 ^ 64 := by
  have hsum := sum_refCounts_le f ((List.range t.capacity).filter p)
  have hlength := List.length_filter_le p (List.range t.capacity)
  rw [List.length_range] at hlength
  simp only [blockSize]
  omega

end DedupTable

/-- **Scans and single reads agree.** On every device, whichever blocks can be read, a scan of a key table
hands out the entries of its slots as they are read one by one, in order and each once, until it has handed
out all slots or comes to the first slot in a block that cannot be read; then it hands out one error and
ends. The keys are the active ones among these entries, and a key is looked up in the lowest active slot
that holds it, if that comes before the error. If all blocks of a dedup table with 32-bit indices can be
read, a scan of it hands out the entries that are read by index; what is located is the lowest entry looked
for, with the lowest one below it that is not active; and the usage is added up over the active entries. -/
theorem scans_agree_with_reads :
    (∀ (t : KeyTable) (d : Device), ∃ n f stop, t.Scanned d n f stop ∧
      t.entries d = scanList ((List.range n).map fun s => (s, f s)) stop ∧
      Yields (t.advance d) .start (t.entries d) ∧
      t.activeKeys d =
        scanList (((List.range n).filter fun s => (f s).isActive).map fun s => (s, (f s).key)) stop ∧
      Yields (t.advanceActive d) .start (t.activeKeys d) ∧
      ∀ key, t.lookup d key =
        match (List.range n).find? fun s => (f s).isActive && (f s).key == key with
        | some s => .ok s
        | none => .error (stop.getD (.notFound (.key key)))) ∧
    ∀ (t : DedupTable) (d : Device), (∀ k < t.blocks, ∃ b, d.readBlock (t.start + k) = .ok b) →
      t.capacity ≤ 2 ^ 32 → ∃ f : Nat → DedupEntry,
      (∀ i < t.capacity, t.entry d i = .ok (f i) ∧ (UInt32.ofNat i).toNat = i) ∧
      t.entries d = ((List.range t.capacity).map fun i => (i, f i)).map .ok ∧
      (∀ c, t.locate d c = .ok (match (List.range t.capacity).find? fun i => c.accepts (f i) with
        | some i => ⟨some (i, f i), (List.range i).find? fun j => !(f j).isActive⟩
        | none => ⟨none, (List.range t.capacity).find? fun j => !(f j).isActive⟩)) ∧
      let active := (List.range t.capacity).filter fun i => (f i).isActive
      let refs := (active.map fun i => (f i).refCount.toNat).sum
      t.stats d = .ok ⟨t.capacity, active.length, refs, (refs - active.length) * blockSize⟩ ∧
        refs * blockSize < 2 ^ 64 := by
  constructor
  · intro t d
    obtain ⟨n, f, stop, h⟩ := t.exists_scanned d
    exact ⟨n, f, stop, h, h.entries_eq, KeyTable.yields_entries, h.activeKeys_eq,
      KeyTable.yields_activeKeys, h.lookup_eq⟩
  · intro t d hread hword
    obtain ⟨hentry, hentries⟩ := DedupTable.entries_eq hread
    refine ⟨t.entryAt d.image, fun i hi => ⟨hentry i hi, ?_⟩, hentries, DedupTable.locate_eq hentries,
      DedupTable.stats_eq hentries, DedupTable.refs_lt hword _⟩
    exact Nat.mod_eq_of_lt (by omega)

namespace Volume

/-- The blocks of the dedup table of a volume can be read, and its entries are those that the volume shows. -/
theorem Shows.entry_shared_eq {sb : Superblock} {r : Prop} {v : Volume} {w : View} {free : List Nat}
    (h : v.Shows sb r w free) (hr : r) :
    (∀ k < sb.dedupBlocks, ∃ b, v.device.readBlock (sb.dedupStart + k) = .ok b) ∧
      ∀ i < sb.dedupCapacity, DedupTable.entry ⟨sb.dedupStart, sb.dedupBlocks⟩ v.device i = .ok (w.shared i) := by
  have hread : ∀ k < sb.dedupBlocks, ∃ b, v.device.readBlock (sb.dedupStart + k) = .ok b := by
    intro k hk
    have := h.fits.dedup_le_dataStart
    exact ⟨_, (h.readBlock_eq (by omega)).resolve_right fun hfault => hfault.2 hr⟩
  refine ⟨hread, fun i hi => ?_⟩
  rw [(DedupTable.entries_eq (t := ⟨sb.dedupStart, sb.dedupBlocks⟩) hread).1 i hi, ← h.view]
  simp only [Superblock.view, if_pos hi, DedupTable.entryAt]

end Volume

/-- Entries of which two are active, the first one and the one with index 200. -/
def twoActive (i : Nat) : DedupEntry :=
  if i = 200 then ⟨⟨bytesOf (List.replicate keySize 1), by decide⟩, DedupEntry.activeFlag, 3, 9⟩
  else if i = 0 then ⟨.zero, DedupEntry.activeFlag, 2, 7⟩
  else .free

/-- The dedup table of a volume with 200 slots has two blocks. Where two of its entries are active, this is
what a scan of it hands out, where it locates the second of them and a block that has none, and its usage. -/
theorem scans_agree_with_reads_two_blocks :
    ∃ (t : DedupTable) (d : Device), t.blocks = 2 ∧
      (∀ k < t.blocks, ∃ b, d.readBlock (t.start + k) = .ok b) ∧
      (∀ i < 256, t.entry d i = .ok (twoActive i)) ∧
      t.entries d = ((List.range 256).map fun i => (i, twoActive i)).map .ok ∧
      t.locate d (.content (twoActive 200).key) = .ok ⟨some (200, twoActive 200), some 1⟩ ∧
      t.locate d (.block 8) = .ok ⟨none, some 1⟩ ∧
      t.stats d = .ok ⟨256, 2, 5, 3 * blockSize⟩ := by
  obtain ⟨l, hl⟩ : ∃ l : Layout, l = ⟨200, true, by decide, by decide⟩ := ⟨_, rfl⟩
  obtain ⟨t, ht⟩ : ∃ t : DedupTable, t = ⟨l.superblock.dedupStart, l.superblock.dedupBlocks⟩ := ⟨_, rfl⟩
  have hblocks : t.blocks = 2 := by
    rw [ht, l.dedupBlocks_superblock, hl]
    decide
  have hcapacity : t.capacity = 256 := by
    rw [DedupTable.capacity, hblocks]
    rfl
  have hcapacity' : l.superblock.dedupCapacity = 256 := by
    rw [← hcapacity, ht]
    rfl
  obtain ⟨v, -, hv⟩ := Volume.exists_format_blank l
  obtain ⟨v, hv⟩ := Volume.Runs.exists_shows
    (Volume.runs_writeShared (i := 0) (e := twoActive 0) hv (by omega) trivial)
  obtain ⟨v, hv⟩ := Volume.Runs.exists_shows
    (Volume.runs_writeShared (i := 200) (e := twoActive 200) hv (by omega) trivial)
  obtain ⟨hread, hentry⟩ := hv.entry_shared_eq trivial
  rw [← ht, hcapacity'] at hentry
  obtain ⟨f, hf, hentries, hlocate, hstats, -⟩ :=
    scans_agree_with_reads.2 t v.device (ht ▸ hread) (by rw [hcapacity]; decide)
  rw [hcapacity] at hf hentries hlocate hstats
  have hsame : ∀ i < 256, f i = twoActive i := by
    intro i hi
    refine Except.ok.inj ((hf i hi).1.symm.trans ((hentry i hi).trans (congrArg _ ?_)))
    simp only [View.shared_setShared, twoActive, View.blank]
    split <;> simp_all
  have hfind {n : Nat} (hn : n ≤ 256) (p : DedupEntry → Bool) :
      ((List.range n).find? fun i => p (f i)) = (List.range n).find? fun i => p (twoActive i) :=
    List.find?_congr fun i hi => by rw [hsame i (Nat.lt_of_lt_of_le (List.mem_range.1 hi) hn)]
  have hmiss : ((List.range 256).find? fun i => (Criterion.block 8).accepts (twoActive i)) = none := by
    decide +kernel
  have hhit : ((List.range 256).find? fun i => (Criterion.content (twoActive 200).key).accepts (twoActive i)) =
      some 200 := by
    decide +kernel
  have hfree : ((List.range 256).find? fun i => !(twoActive i).isActive) = some 1 ∧
      ((List.range 200).find? fun i => !(twoActive i).isActive) = some 1 := by
    decide +kernel
  have hactive : ((List.range 256).filter fun i => (f i).isActive) = [0, 200] := by
    rw [List.filter_congr fun i hi => by rw [hsame i (List.mem_range.1 hi)]]
    decide +kernel
  refine ⟨t, v.device, hblocks, ht ▸ hread, fun i hi => hsame i hi ▸ (hf i hi).1, ?_, ?_, ?_, ?_⟩
  · rw [hentries]
    refine congrArg (List.map Except.ok) (List.map_congr_left fun i hi => ?_)
    rw [hsame i (List.mem_range.1 hi)]
  · rw [hlocate, hfind (Nat.le_refl _), hhit]
    simp only
    rw [hfind (n := 200) (by decide) fun e => !e.isActive, hfree.2, hsame 200 (by decide)]
  · rw [hlocate, hfind (Nat.le_refl _), hmiss]
    simp only
    rw [hfind (Nat.le_refl _) fun e => !e.isActive, hfree.1]
  · simp only [hactive, List.map_cons, List.map_nil, hsame 0 (by decide), hsame 200 (by decide)] at hstats
    exact hstats

end BlockStore
