import BlockStore.Proofs.Tables

/-!
# The dedup table as a map with reference counts

To its callers the dedup table is a map from contents to blocks in which each content has a count. It
holds by itself, without a volume around: for a table of any number of blocks, wherever it lies on a
device, and for any calls, as long as a candidate is not a block that the table has already.

Entries become free out of order and are taken again, and one scan looks both for the content and for
a free entry. So that no content and no block comes to have two entries is what every call has to keep,
and it is what makes the counts mean anything: the entry that a scan finds is the only one there is.

What an entry counts is said by the calls that were answered. Its count is the references taken to its
content since the content last came into the table, less the references dropped to its block since then.

## Main definitions

* `SharingCall`, `SharingEvent`: a call of the table, and what it came to.
* `DedupTable.Answers`: what a call returns, and what becomes of the entries.
* `DedupTable.Reaches`: any calls, one after the other, and what they came to.
* `Counted`: what an entry counts, as the calls have it.
* `DedupTable.Counts`: the invariant.

## Main results

* `DedupTable.Counts.answers`: one call.
* `DedupTable.Reaches.counts`: all calls.
* `DedupTable.counts_references`: the contract of a table that starts out with free entries only.
-/

namespace BlockStore

/-- A call of a dedup table. -/
inductive SharingCall where
  /-- Take a reference to a content, which the candidate holds if the table has no block for it. -/
  | share (content : Key) (candidate : Nat)
  /-- Drop a reference to a block. -/
  | unref (block : Nat)

/-- What a call came to that succeeded. -/
inductive SharingEvent where
  /-- A content came into the table with a block and one reference. -/
  | created (content : Key) (block : Nat)
  /-- One more reference to a content. -/
  | shared (content : Key)
  /-- One reference less to a block. -/
  | dropped (block : Nat)
deriving DecidableEq

/-- Nothing was written to the device. -/
structure Device.Untouched (d d' : Device) : Prop where
  image : d'.image = d.image
  log : d'.log = d.log
  reliable : d'.Reliable ↔ d.Reliable

/-- A count is the references taken to the content since it last came into the table, the first one
included, less those dropped to the block since. -/
def Counted (history : List SharingEvent) (e : DedupEntry) : Prop :=
  ∃ before after, history = before ++ .created e.key e.block :: after ∧
    (∀ n, .created e.key n ∉ after) ∧
    e.refCount.toNat + after.count (.dropped e.block) = 1 + after.count (.shared e.key)

namespace DedupTable

/-- An entry that is looked for is in the table. -/
def Has (t : DedupTable) (im : Image) (c : Criterion) : Prop :=
  ∃ i < t.capacity, c.accepts (t.entryAt im i) = true

instance (t : DedupTable) (im : Image) (c : Criterion) : Decidable (t.Has im c) :=
  inferInstanceAs (Decidable (∃ i < t.capacity, c.accepts (t.entryAt im i) = true))

/-- The entry with an index is one of the table and active. -/
def Live (t : DedupTable) (im : Image) (i : Nat) : Prop := i < t.capacity ∧ (t.entryAt im i).isActive

/-- One entry was replaced, and no block written but its own. -/
structure Sets (t : DedupTable) (i : Nat) (e : DedupEntry) (d d' : Device) : Prop where
  entryAt : ∀ j, t.entryAt d'.image j = if j = i then e else t.entryAt d.image j
  other_blocks : ∀ n ≠ t.start + i / recordsPerBlock, d'.image.block n = d.image.block n
  size : d'.size = d.size
  reliable : d'.Reliable ↔ d.Reliable

end DedupTable

namespace SharingCall

/-- Makes the call: the block that holds the content, or the number of references left. -/
def run : SharingCall → DedupTable → DeviceM Nat
  | share content candidate, t => t.share content candidate
  | unref block, t => t.unref block

/-- A candidate is no block that the table has. -/
def Fits (t : DedupTable) (im : Image) : SharingCall → Prop
  | share _ candidate => candidate < 2 ^ 64 ∧ ¬ t.Has im (.block candidate)
  | unref _ => True

/-- What the call comes to if it succeeds. -/
def event (t : DedupTable) (im : Image) : SharingCall → SharingEvent
  | share content candidate =>
    if t.Has im (.content content) then .shared content else .created content candidate
  | unref block => .dropped block

end SharingCall

namespace DedupTable

/-- What a call returns, and what has become of the table then. -/
inductive Answers (t : DedupTable) (d : Device) :
    SharingCall → EStateM.Result StoreError Device Nat → Prop
  /-- The content is there and counts one more. -/
  | another {content : Key} {candidate i : Nat} {d' : Device} (hi : i < t.capacity)
      (hfound : (Criterion.content content).accepts (t.entryAt d.image i) = true)
      (hroom : (t.entryAt d.image i).refCount.toNat + 1 < 1 <<< 16)
      (hd' : t.Sets i (Volume.shareEntry (t.entryAt d.image i)) d d') :
      Answers t d (.share content candidate) (.ok (t.entryAt d.image i).block d')
  /-- The content is there and cannot count any more. -/
  | saturated {content : Key} {candidate i : Nat} {d' : Device} (hi : i < t.capacity)
      (hfound : (Criterion.content content).accepts (t.entryAt d.image i) = true)
      (hfull : (t.entryAt d.image i).refCount.toNat = 65535) (hd' : d.Untouched d') :
      Answers t d (.share content candidate)
        (.error (.refcountSaturated (t.entryAt d.image i).block) d')
  /-- The content is not there, and gets an entry with the candidate. -/
  | first {content : Key} {candidate i : Nat} {d' : Device}
      (habsent : ¬ t.Has d.image (.content content)) (hi : i < t.capacity)
      (hidle : (t.entryAt d.image i).isActive = false)
      (hd' : t.Sets i (Volume.newEntry content candidate) d d') :
      Answers t d (.share content candidate) (.ok candidate d')
  /-- The content is not there, and all entries are taken. -/
  | full {content : Key} {candidate : Nat} {d' : Device}
      (habsent : ¬ t.Has d.image (.content content)) (hall : ∀ i < t.capacity, t.Live d.image i)
      (hd' : d.Untouched d') : Answers t d (.share content candidate) (.error .tableFull d')
  /-- The block is there and counts one less. -/
  | fewer {block i : Nat} {d' : Device} (hi : i < t.capacity)
      (hfound : (Criterion.block block).accepts (t.entryAt d.image i) = true)
      (hleft : 1 < (t.entryAt d.image i).refCount.toNat)
      (hd' : t.Sets i { t.entryAt d.image i with
        refCount := UInt16.ofNat ((t.entryAt d.image i).refCount.toNat - 1) } d d') :
      Answers t d (.unref block) (.ok ((t.entryAt d.image i).refCount.toNat - 1) d')
  /-- The block is there with its last reference, and its entry becomes the free one. -/
  | last {block i : Nat} {d' : Device} (hi : i < t.capacity)
      (hfound : (Criterion.block block).accepts (t.entryAt d.image i) = true)
      (hlast : (t.entryAt d.image i).refCount.toNat = 1) (hd' : t.Sets i .free d d') :
      Answers t d (.unref block) (.ok 0 d')
  /-- The block is not there. -/
  | unknown {block : Nat} {d' : Device} (habsent : ¬ t.Has d.image (.block block))
      (hd' : d.Untouched d') : Answers t d (.unref block) (.error (.notFound (.dedupEntry block)) d')
  /-- The device has failed. -/
  | fault {c : SharingCall} {e : DeviceError} {d' : Device} (hr : ¬ d.Reliable)
      (hd' : d.Untouched d') : Answers t d c (.error (.device e) d')

/-- The device is where calls have brought it, and this is what those that succeeded came to. -/
inductive Reaches (t : DedupTable) (d₀ : Device) : List SharingEvent → Device → Prop
  | refl : Reaches t d₀ [] d₀
  | ok {history : List SharingEvent} {d d' : Device} {c : SharingCall} {n : Nat}
      (h : Reaches t d₀ history d) (hc : c.Fits t d.image) (hrun : c.run t d = .ok n d') :
      Reaches t d₀ (history ++ [c.event t d.image]) d'
  | error {history : List SharingEvent} {d d' : Device} {c : SharingCall} {e : StoreError}
      (h : Reaches t d₀ history d) (hc : c.Fits t d.image) (hrun : c.run t d = .error e d') :
      Reaches t d₀ history d'

/-- No two active entries have a content or a block in common, each counts what it should and at least
one, and an entry that is not active is the free one. -/
structure Counts (t : DedupTable) (history : List SharingEvent) (im : Image) : Prop where
  key_inj : ∀ {i j}, t.Live im i → t.Live im j → (t.entryAt im i).key = (t.entryAt im j).key → i = j
  block_inj : ∀ {i j}, t.Live im i → t.Live im j →
    (t.entryAt im i).block = (t.entryAt im j).block → i = j
  pos : ∀ {i}, t.Live im i → 0 < (t.entryAt im i).refCount.toNat
  counted : ∀ {i}, t.Live im i → Counted history (t.entryAt im i)
  free : ∀ {i}, i < t.capacity → ¬ t.Live im i → t.entryAt im i = .free

end DedupTable

/-! ### What an entry counts -/

namespace Counted

variable {history : List SharingEvent} {e : DedupEntry}

theorem created (history : List SharingEvent) (content : Key) {block : Nat}
    (hblock : block < 2 ^ 64) :
    Counted (history ++ [.created content block]) (Volume.newEntry content block) := by
  refine ⟨history, [], ?_, by simp, ?_⟩
  · rw [Volume.block_newEntry content hblock]
    rfl
  · simp only [List.count_nil, Nat.add_zero]
    rfl

theorem shared (h : Counted history e) (hroom : e.refCount.toNat + 1 < 1 <<< 16) :
    Counted (history ++ [.shared e.key]) (Volume.shareEntry e) := by
  obtain ⟨before, after, rfl, hlast, hcount⟩ := h
  have hkey : (Volume.shareEntry e).key = e.key := rfl
  have hblock : (Volume.shareEntry e).block = e.block := rfl
  refine ⟨before, after ++ [.shared e.key], by simp [hkey, hblock], ?_, ?_⟩
  · intro n hmem
    rcases List.mem_append.1 hmem with hmem | hmem
    · exact hlast n hmem
    · simp at hmem
  · rw [Volume.refCount_shareEntry hroom, hkey, hblock, List.count_append, List.count_append,
      List.count_singleton_self, List.count_singleton, if_neg (by simp)]
    omega

theorem dropped (h : Counted history e) (hleft : 1 < e.refCount.toNat) :
    Counted (history ++ [.dropped e.block])
      { e with refCount := UInt16.ofNat (e.refCount.toNat - 1) } := by
  obtain ⟨before, after, rfl, hlast, hcount⟩ := h
  obtain ⟨e', he'⟩ : ∃ e' : DedupEntry,
    e' = { e with refCount := UInt16.ofNat (e.refCount.toNat - 1) } := ⟨_, rfl⟩
  have hkey : e'.key = e.key := by rw [he']
  have hblock : e'.block = e.block := by rw [he', DedupEntry.block, DedupEntry.block]
  have hnat : e'.refCount.toNat = e.refCount.toNat - 1 := by
    rw [he']
    exact Volume.refCount_unrefEntry e
  rw [← he']
  refine ⟨before, after ++ [.dropped e.block], by simp [hkey, hblock], ?_, ?_⟩
  · intro n hmem
    rcases List.mem_append.1 hmem with hmem | hmem
    · rw [hkey] at hmem
      exact hlast n hmem
    · simp at hmem
  · rw [hnat, hkey, hblock, List.count_append, List.count_append,
      List.count_singleton_self, List.count_singleton, if_neg (by simp)]
    omega

/-- What happens to other contents and other blocks does not count. -/
theorem other {ev : SharingEvent} (h : Counted history e)
    (hcreated : ∀ n, ev ≠ .created e.key n) (hshared : ev ≠ .shared e.key)
    (hdropped : ev ≠ .dropped e.block) : Counted (history ++ [ev]) e := by
  obtain ⟨before, after, rfl, hlast, hcount⟩ := h
  refine ⟨before, after ++ [ev], by simp, ?_, ?_⟩
  · intro n hmem
    rcases List.mem_append.1 hmem with hmem | hmem
    · exact hlast n hmem
    · exact hcreated n (List.mem_singleton.1 hmem).symm
  · rw [List.count_append, List.count_append, List.count_singleton, List.count_singleton,
      if_neg (by simpa using hdropped), if_neg (by simpa using hshared)]
    omega

end Counted

namespace DedupTable

variable {t : DedupTable} {d d' d₀ : Device} {im im' : Image} {i j : Nat} {e : DedupEntry}
  {c : SharingCall} {history history' : List SharingEvent} {x : StoreError} {n : Nat}

/-! ### One call -/

theorem live_of_content {content : Key} (hi : i < t.capacity)
    (hfound : (Criterion.content content).accepts (t.entryAt im i) = true) :
    t.Live im i ∧ (t.entryAt im i).key = content := by
  simp only [Criterion.accepts, Bool.and_eq_true, beq_iff_eq] at hfound
  exact ⟨⟨hi, hfound.1⟩, hfound.2⟩

theorem live_of_block {block : Nat} (hi : i < t.capacity)
    (hfound : (Criterion.block block).accepts (t.entryAt im i) = true) :
    t.Live im i ∧ (t.entryAt im i).block = block := by
  simp only [Criterion.accepts, Bool.and_eq_true, beq_iff_eq] at hfound
  exact ⟨⟨hi, hfound.1⟩, hfound.2⟩

theorem has_content (h : t.Live im i) : t.Has im (.content (t.entryAt im i).key) :=
  ⟨i, h.1, by simp [Criterion.accepts, h.2]⟩

theorem has_block (h : t.Live im i) : t.Has im (.block (t.entryAt im i).block) :=
  ⟨i, h.1, by simp [Criterion.accepts, h.2]⟩

theorem untouched_tick (d : Device) : d.Untouched d.tick := ⟨rfl, rfl, Device.reliable_tick⟩

theorem untouched_of_tick (h : d.tick.Untouched d') : d.Untouched d' :=
  ⟨h.image, h.log, h.reliable.trans Device.reliable_tick⟩

theorem holds_of_covers (hcovers : d.Covers t.start t.blocks) (hi : i < t.capacity) :
    d.Holds (t.start + i / recordsPerBlock) :=
  hcovers.holds ((Nat.div_lt_iff_lt_mul (by decide)).2 hi)

/-- Writing the block of an entry with that entry replaced. -/
theorem sets_wrote (hcovers : d.Covers t.start t.blocks) (hi : i < t.capacity) (e : DedupEntry) :
    t.Sets i e d (d.wrote (t.start + i / recordsPerBlock)
      ((d.image.block (t.start + i / recordsPerBlock)).setRecord (i % recordsPerBlock) e.toRecord)) where
  entryAt j := by
    rw [Device.wrote, entryAt, Image.record_write]
    by_cases hji : j = i
    · rw [if_pos hji, if_pos hji, DedupEntry.ofRecord_toRecord]
    · rw [if_neg hji, if_neg hji, entryAt]
  other_blocks n hn := by
    rw [Device.wrote, Image.block_write_bytes, if_neg hn.symm]
  size := (holds_of_covers hcovers hi).size_wrote _
  reliable := (holds_of_covers hcovers hi).reliable_wrote _

/-- Replacing an entry: its block is read, and written back with the entry. -/
theorem writeEntry_cases (hcovers : d.Covers t.start t.blocks) (hi : i < t.capacity)
    (e : DedupEntry) :
    (∃ d', t.writeEntry i e d = .ok () d' ∧ t.Sets i e d d') ∨
      ∃ x d', t.writeEntry i e d = .error (.device x) d' ∧ d.Untouched d' ∧ ¬ d.Reliable := by
  have hholds := holds_of_covers hcovers hi
  simp only [writeEntry, RecordTable.write, RecordTable.blockOf, records, bind, EStateM.bind,
    Device.look]
  rcases Device.readBlock_eq hholds with hread | ⟨⟨x, hread⟩, hr⟩
  · rw [hread]
    rcases Device.writeBlock_eq (holds_of_covers hcovers.tick hi)
      ((d.image.block (t.start + i / recordsPerBlock)).setRecord (i % recordsPerBlock) e.toRecord) with
      hwrite | ⟨⟨x, hwrite⟩, hr⟩
    · have hsets := sets_wrote hcovers.tick hi e
      exact .inl ⟨_, hwrite, hsets.entryAt, hsets.other_blocks, hsets.size,
        hsets.reliable.trans Device.reliable_tick⟩
    · exact .inr ⟨x, _, hwrite, untouched_of_tick (untouched_tick d.tick),
        fun hd => hr (Device.reliable_tick.2 hd)⟩
  · rw [hread]
    exact .inr ⟨x, _, rfl, untouched_tick d, hr⟩

/-- The table, as a scan of the device sees it. -/
theorem locate_cases_of_covers (hcovers : d.Covers t.start t.blocks) (c : Criterion) :
    (∃ i < t.capacity, c.accepts (t.entryAt d.image i) ∧ ∃ ff,
        t.locate d c = .ok ⟨some (i, t.entryAt d.image i), ff⟩) ∨
      (¬ t.Has d.image c ∧ ∃ ff, t.locate d c = .ok ⟨none, ff⟩ ∧
        (∀ i, ff = some i → i < t.capacity ∧ (t.entryAt d.image i).isActive = false) ∧
        (ff = none → ∀ i < t.capacity, t.Live d.image i)) ∨
      (∃ e, t.locate d c = .error (.device e)) ∧ ¬ d.Reliable := by
  have hreads := reads_entries fun k hk => Device.readBlock_eq (hcovers.holds hk)
  rcases locate_cases hreads c with hfound | ⟨hnone, ff, hrun, hsome, hall⟩ | hfault
  · exact .inl hfound
  · refine .inr (.inl ⟨?_, ff, hrun, hsome, fun hff i hi => ⟨hi, hall hff i hi⟩⟩)
    rintro ⟨i, hi, haccepts⟩
    exact hnone i hi haccepts
  · exact .inr (.inr hfault)

/-- Replacing an entry after the device was looked at. -/
theorem writeEntry_tick_cases (hcovers : d.Covers t.start t.blocks) (hi : i < t.capacity)
    (e : DedupEntry) :
    (∃ d', t.writeEntry i e d.tick = .ok () d' ∧ t.Sets i e d d') ∨
      ∃ x d', t.writeEntry i e d.tick = .error (.device x) d' ∧ d.Untouched d' ∧ ¬ d.Reliable := by
  rcases writeEntry_cases hcovers.tick hi e with ⟨d', hwrite, hsets⟩ | ⟨x, d', hwrite, huntouched, hr⟩
  · exact .inl ⟨d', hwrite, hsets.entryAt, hsets.other_blocks, hsets.size,
      hsets.reliable.trans Device.reliable_tick⟩
  · exact .inr ⟨x, d', hwrite, untouched_of_tick huntouched,
      fun hd => hr (Device.reliable_tick.2 hd)⟩

/-- Taking a reference. -/
theorem answers_share (hcovers : d.Covers t.start t.blocks) (content : Key) (candidate : Nat) :
    t.Answers d (.share content candidate) (t.share content candidate d) := by
  simp only [share, bind, EStateM.bind, Device.look]
  rcases locate_cases_of_covers hcovers (.content content) with
    ⟨i, hi, hfound, ff, hrun⟩ | ⟨habsent, ff, hrun, hsome, hall⟩ | ⟨⟨e, hrun⟩, hr⟩
  · simp only [hrun]
    by_cases hroom : (t.entryAt d.image i).refCount.toNat + 1 < 1 <<< 16
    · rw [if_pos hroom]
      rcases writeEntry_tick_cases hcovers hi (Volume.shareEntry (t.entryAt d.image i)) with
        ⟨d', hwrite, hsets⟩ | ⟨x, d', hwrite, huntouched, hr⟩
      · rw [Volume.shareEntry] at hwrite
        simp only [EStateM.bind, hwrite]
        exact .another hi hfound hroom hsets
      · rw [Volume.shareEntry] at hwrite
        simp only [EStateM.bind, hwrite]
        exact .fault hr huntouched
    · rw [if_neg hroom]
      have hlt := (t.entryAt d.image i).refCount.toNat_lt
      have hfull : (t.entryAt d.image i).refCount.toNat = 65535 := by
        rw [Nat.one_shiftLeft] at hroom
        omega
      exact .saturated hi hfound hfull (untouched_tick d)
  · simp only [hrun]
    cases hff : ff with
    | none => exact .full habsent (hall hff) (untouched_tick d)
    | some i =>
      obtain ⟨hi, hidle⟩ := hsome i hff
      rcases writeEntry_tick_cases hcovers hi (Volume.newEntry content candidate) with
        ⟨d', hwrite, hsets⟩ | ⟨x, d', hwrite, huntouched, hr⟩
      · rw [Volume.newEntry] at hwrite
        simp only [EStateM.bind, hwrite]
        exact .first habsent hi hidle hsets
      · rw [Volume.newEntry] at hwrite
        simp only [EStateM.bind, hwrite]
        exact .fault hr huntouched
  · simp only [hrun]
    exact .fault hr (untouched_tick d)

/-- Dropping a reference, where no active entry counts none. -/
theorem answers_unref (hcovers : d.Covers t.start t.blocks)
    (hpos : ∀ {i}, t.Live d.image i → 0 < (t.entryAt d.image i).refCount.toNat) (block : Nat) :
    t.Answers d (.unref block) (t.unref block d) := by
  simp only [unref, bind, EStateM.bind, Device.look]
  rcases locate_cases_of_covers hcovers (.block block) with
    ⟨i, hi, hfound, ff, hrun⟩ | ⟨habsent, ff, hrun, -, -⟩ | ⟨⟨e, hrun⟩, hr⟩
  · simp only [hrun]
    have hcount := hpos (live_of_block hi hfound).1
    rcases writeEntry_tick_cases hcovers hi (Volume.unrefEntry (t.entryAt d.image i)) with
      ⟨d', hwrite, hsets⟩ | ⟨x, d', hwrite, huntouched, hr⟩
    · rw [Volume.unrefEntry] at hwrite hsets
      simp only [EStateM.bind, hwrite]
      by_cases hlast : (t.entryAt d.image i).refCount.toNat - 1 = 0
      · rw [if_pos hlast] at hsets
        rw [hlast]
        exact .last hi hfound (by omega) hsets
      · rw [if_neg hlast] at hsets
        exact .fewer hi hfound (by omega) hsets
    · rw [Volume.unrefEntry] at hwrite
      simp only [EStateM.bind, hwrite]
      exact .fault hr huntouched
  · simp only [hrun]
    exact .unknown habsent (untouched_tick d)
  · simp only [hrun]
    exact .fault hr (untouched_tick d)

/-- Every call of a sound table is answered as it should be. -/
theorem Counts.answers (h : t.Counts history d.image) (hcovers : d.Covers t.start t.blocks)
    (c : SharingCall) : t.Answers d c (c.run t d) := by
  cases c with
  | share content candidate => exact answers_share hcovers content candidate
  | unref block => exact answers_unref hcovers h.pos block

/-! ### What a call keeps -/

theorem Sets.entryAt_self (hsets : t.Sets i e d d') : t.entryAt d'.image i = e :=
  (hsets.entryAt i).trans (if_pos rfl)

theorem Sets.entryAt_of_ne (hsets : t.Sets i e d d') (hji : j ≠ i) :
    t.entryAt d'.image j = t.entryAt d.image j := (hsets.entryAt j).trans (if_neg hji)

theorem Sets.live_iff (hsets : t.Sets i e d d') (hji : j ≠ i) :
    t.Live d'.image j ↔ t.Live d.image j := by
  rw [Live, Live, hsets.entryAt_of_ne hji]

theorem Sets.isActive_of_live (hsets : t.Sets i e d d') (h : t.Live d'.image i) : e.isActive :=
  hsets.entryAt_self ▸ h.2

/-- What tells the active entries apart still does, if no other has that of the new one. -/
theorem Sets.inj {β : Type} {f : DedupEntry → β} (hsets : t.Sets i e d d')
    (hinj : ∀ {j k}, t.Live d.image j → t.Live d.image k →
      f (t.entryAt d.image j) = f (t.entryAt d.image k) → j = k)
    (hnew : e.isActive → ∀ j ≠ i, t.Live d.image j → f (t.entryAt d.image j) ≠ f e) {j k : Nat}
    (hj : t.Live d'.image j) (hk : t.Live d'.image k)
    (hjk : f (t.entryAt d'.image j) = f (t.entryAt d'.image k)) : j = k := by
  by_cases hji : j = i <;> by_cases hki : k = i
  · rw [hji, hki]
  · subst hji
    rw [hsets.entryAt_self, hsets.entryAt_of_ne hki] at hjk
    exact absurd hjk.symm (hnew (hsets.isActive_of_live hj) k hki ((hsets.live_iff hki).1 hk))
  · subst hki
    rw [hsets.entryAt_self, hsets.entryAt_of_ne hji] at hjk
    exact absurd hjk (hnew (hsets.isActive_of_live hk) j hji ((hsets.live_iff hji).1 hj))
  · rw [hsets.entryAt_of_ne hji, hsets.entryAt_of_ne hki] at hjk
    exact hinj ((hsets.live_iff hji).1 hj) ((hsets.live_iff hki).1 hk) hjk

/-- Replacing an entry: the new one has to have its content and its block for itself, and count what it
should, and the others have to count what they did. -/
theorem Counts.sets (h : t.Counts history d.image) (hsets : t.Sets i e d d')
    (hkey : e.isActive → ∀ j ≠ i, t.Live d.image j → (t.entryAt d.image j).key ≠ e.key)
    (hblock : e.isActive → ∀ j ≠ i, t.Live d.image j → (t.entryAt d.image j).block ≠ e.block)
    (hnew : e.isActive → 0 < e.refCount.toNat ∧ Counted history' e)
    (hold : ∀ j ≠ i, t.Live d.image j → Counted history' (t.entryAt d.image j))
    (hfree : ¬ e.isActive → e = .free) : t.Counts history' d'.image where
  key_inj := hsets.inj h.key_inj hkey
  block_inj := hsets.inj h.block_inj hblock
  pos := by
    intro j hj
    by_cases hji : j = i
    · subst hji
      rw [hsets.entryAt_self]
      exact (hnew (hsets.isActive_of_live hj)).1
    · rw [hsets.entryAt_of_ne hji]
      exact h.pos ((hsets.live_iff hji).1 hj)
  counted := by
    intro j hj
    by_cases hji : j = i
    · subst hji
      rw [hsets.entryAt_self]
      exact (hnew (hsets.isActive_of_live hj)).2
    · rw [hsets.entryAt_of_ne hji]
      exact hold j hji ((hsets.live_iff hji).1 hj)
  free := by
    intro j hj hidle
    by_cases hji : j = i
    · subst hji
      rw [hsets.entryAt_self]
      exact hfree fun hactive => hidle ⟨hj, hsets.entryAt_self.symm ▸ hactive⟩
    · rw [hsets.entryAt_of_ne hji]
      exact h.free hj fun hlive => hidle ((hsets.live_iff hji).2 hlive)

/-- A call that succeeds keeps the invariant. -/
theorem Counts.call (h : t.Counts history d.image) (hfits : c.Fits t d.image)
    (hanswers : t.Answers d c (.ok n d')) :
    t.Counts (history ++ [c.event t d.image]) d'.image := by
  generalize hresult : EStateM.Result.ok n d' = result at hanswers
  cases hanswers with
  | @another content candidate i u hi hfound hroom hd' =>
    obtain ⟨-, rfl⟩ := EStateM.Result.ok.inj hresult
    obtain ⟨hlive, rfl⟩ := live_of_content hi hfound
    rw [SharingCall.event, if_pos (has_content hlive)]
    refine h.sets hd' (fun _ j hji hj hkey => hji (h.key_inj hj hlive hkey))
      (fun _ j hji hj hblock => hji (h.block_inj hj hlive hblock))
      (fun _ => ⟨?_, (h.counted hlive).shared hroom⟩) (fun j hji hj => ?_)
      (fun hidle => absurd hlive.2 hidle)
    · rw [Volume.refCount_shareEntry hroom]
      exact Nat.succ_pos _
    · exact (h.counted hj).other (by simp)
        (fun heq => hji (h.key_inj hj hlive (SharingEvent.shared.inj heq).symm)) (by simp)
  | @first content candidate i u habsent hi hidle hd' =>
    obtain ⟨rfl, rfl⟩ := EStateM.Result.ok.inj hresult
    rw [SharingCall.event, if_neg habsent]
    have hfresh {j : Nat} (hj : t.Live d.image j) : (t.entryAt d.image j).key ≠ content :=
      fun hkey => habsent (hkey ▸ has_content hj)
    obtain ⟨hlt, hunknown⟩ := hfits
    have hkey : (Volume.newEntry content n).key = content := rfl
    have hcount : (Volume.newEntry content n).refCount = 1 := rfl
    refine h.sets hd' (fun _ j _ hj => hkey ▸ hfresh hj) (fun _ j _ hj hblock => hunknown ?_)
      (fun _ => ⟨?_, Counted.created history content hlt⟩) (fun j _ hj => ?_)
      (fun hno => absurd (Volume.isActive_newEntry content n) hno)
    · rw [Volume.block_newEntry content hlt] at hblock
      exact hblock ▸ has_block hj
    · rw [hcount]
      decide
    · exact (h.counted hj).other
        (fun m heq => hfresh hj (SharingEvent.created.inj heq).1.symm) (by simp) (by simp)
  | @fewer block i u hi hfound hleft hd' =>
    obtain ⟨-, rfl⟩ := EStateM.Result.ok.inj hresult
    obtain ⟨hlive, rfl⟩ := live_of_block hi hfound
    refine h.sets hd' (fun _ j hji hj hkey => hji (h.key_inj hj hlive hkey))
      (fun _ j hji hj hblock => hji (h.block_inj hj hlive hblock))
      (fun _ => ⟨?_, (h.counted hlive).dropped hleft⟩) (fun j hji hj => ?_)
      (fun hidle => absurd hlive.2 hidle)
    · rw [Volume.refCount_unrefEntry]
      omega
    · exact (h.counted hj).other (by simp [SharingCall.event]) (by simp [SharingCall.event])
        (fun heq => hji (h.block_inj hj hlive (SharingEvent.dropped.inj heq).symm))
  | @last block i u hi hfound hlast hd' =>
    obtain ⟨-, rfl⟩ := EStateM.Result.ok.inj hresult
    obtain ⟨hlive, rfl⟩ := live_of_block hi hfound
    have hidle : ¬ DedupEntry.free.isActive := by decide
    refine h.sets hd' (fun hfree => absurd hfree hidle) (fun hfree => absurd hfree hidle)
      (fun hfree => absurd hfree hidle) (fun j hji hj => ?_) (fun _ => rfl)
    exact (h.counted hj).other (by simp [SharingCall.event]) (by simp [SharingCall.event])
      (fun heq => hji (h.block_inj hj hlive (SharingEvent.dropped.inj heq).symm))
  | _ => cases hresult

/-- A table of free entries counts nothing. -/
theorem counts_of_free (hfree : ∀ i < t.capacity, t.entryAt im i = .free) : t.Counts [] im := by
  have hidle {i : Nat} : ¬ t.Live im i := fun hlive => by
    have hactive := hlive.2
    rw [hfree i hlive.1] at hactive
    exact absurd hactive (by decide)
  exact ⟨fun h => absurd h hidle, fun h => absurd h hidle, fun h => absurd h hidle,
    fun h => absurd h hidle, fun hi _ => hfree _ hi⟩

/-! ### Many calls -/

theorem Answers.size_of_ok (h : t.Answers d c (.ok n d')) : d'.size = d.size := by
  generalize hresult : EStateM.Result.ok n d' = result at h
  cases h with
  | another _ _ _ hd' => exact (EStateM.Result.ok.inj hresult).2 ▸ hd'.size
  | first _ _ _ hd' => exact (EStateM.Result.ok.inj hresult).2 ▸ hd'.size
  | fewer _ _ _ hd' => exact (EStateM.Result.ok.inj hresult).2 ▸ hd'.size
  | last _ _ _ hd' => exact (EStateM.Result.ok.inj hresult).2 ▸ hd'.size
  | _ => cases hresult

theorem Answers.untouched_of_error (h : t.Answers d c (.error x d')) : d.Untouched d' := by
  generalize hresult : EStateM.Result.error x d' = result at h
  cases h with
  | saturated _ _ _ hd' => exact (EStateM.Result.error.inj hresult).2 ▸ hd'
  | full _ _ hd' => exact (EStateM.Result.error.inj hresult).2 ▸ hd'
  | unknown _ hd' => exact (EStateM.Result.error.inj hresult).2 ▸ hd'
  | fault _ hd' => exact (EStateM.Result.error.inj hresult).2 ▸ hd'
  | _ => cases hresult

/-- No sequence of calls gives a content or a block two entries, or miscounts one. -/
theorem Reaches.counts (hcovers : d₀.Covers t.start t.blocks) (h₀ : t.Counts [] d₀.image)
    (h : Reaches t d₀ history d) : t.Counts history d.image ∧ d.Covers t.start t.blocks := by
  induction h with
  | refl => exact ⟨h₀, hcovers⟩
  | @ok history d d' c n _ hc hrun ih =>
    obtain ⟨hcounts, hcovers⟩ := ih
    have hanswers := hcounts.answers hcovers c
    rw [hrun] at hanswers
    exact ⟨hcounts.call hc hanswers, hcovers.of_size_eq hanswers.size_of_ok⟩
  | @error history d d' c e _ hc hrun ih =>
    obtain ⟨hcounts, hcovers⟩ := ih
    have hanswers := hcounts.answers hcovers c
    rw [hrun] at hanswers
    have himage := hanswers.untouched_of_error.image
    exact ⟨himage ▸ hcounts, hcovers.of_size_eq (congrArg Image.size himage)⟩

/-! ### Why a call fails -/

/-- A call that fails on a device without faults says what is the matter with the table. -/
structure Refuses (t : DedupTable) (d : Device) : Prop where
  full : ∀ content candidate, (∃ u, t.share content candidate d = .error .tableFull u) ↔
    ¬ t.Has d.image (.content content) ∧ ∀ i < t.capacity, t.Live d.image i
  saturated : ∀ content candidate,
    (∃ n u, t.share content candidate d = .error (.refcountSaturated n) u) ↔
      ∃ i, t.Live d.image i ∧ (t.entryAt d.image i).key = content ∧
        (t.entryAt d.image i).refCount.toNat = 65535
  unknown : ∀ block, (∃ u, t.unref block d = .error (.notFound (.dedupEntry block)) u) ↔
    ¬ t.Has d.image (.block block)

section Refusal

variable (h : t.Counts history d.image) (hcovers : d.Covers t.start t.blocks) (hr : d.Reliable)

include h hcovers hr

theorem Counts.full_iff (content : Key) (candidate : Nat) :
    (∃ u, t.share content candidate d = .error .tableFull u) ↔
      ¬ t.Has d.image (.content content) ∧ ∀ i < t.capacity, t.Live d.image i := by
  have hanswers := h.answers hcovers (.share content candidate)
  rw [SharingCall.run] at hanswers
  generalize t.share content candidate d = result at hanswers
  constructor
  · rintro ⟨u, rfl⟩
    cases hanswers with
    | full habsent hall _ => exact ⟨habsent, hall⟩
  · rintro ⟨habsent, hall⟩
    cases hanswers with
    | another hi hfound _ _ => exact absurd ⟨_, hi, hfound⟩ habsent
    | saturated hi hfound _ _ => exact absurd ⟨_, hi, hfound⟩ habsent
    | first _ hi hidle _ =>
      have hactive := (hall _ hi).2
      rw [hidle] at hactive
      cases hactive
    | full _ _ _ => exact ⟨_, rfl⟩
    | fault hno _ => exact absurd hr hno

theorem Counts.saturated_iff (content : Key) (candidate : Nat) :
    (∃ n u, t.share content candidate d = .error (.refcountSaturated n) u) ↔
      ∃ i, t.Live d.image i ∧ (t.entryAt d.image i).key = content ∧
        (t.entryAt d.image i).refCount.toNat = 65535 := by
  have hanswers := h.answers hcovers (.share content candidate)
  rw [SharingCall.run] at hanswers
  generalize t.share content candidate d = result at hanswers
  constructor
  · rintro ⟨n, u, rfl⟩
    generalize hresult : EStateM.Result.error (StoreError.refcountSaturated n) u = result at hanswers
    cases hanswers with
    | @saturated _ _ i _ hi hfound hfull _ =>
      obtain ⟨hlive, hkey⟩ := live_of_content hi hfound
      exact ⟨i, hlive, hkey, hfull⟩
    | _ => cases hresult
  · rintro ⟨i, hlive, hkey, hfull⟩
    have hhas : t.Has d.image (.content content) := hkey ▸ has_content hlive
    cases hanswers with
    | @another _ _ j _ hj hfound hroom _ =>
      obtain ⟨hlive', hkey'⟩ := live_of_content hj hfound
      obtain rfl := h.key_inj hlive hlive' (hkey.trans hkey'.symm)
      rw [hfull] at hroom
      exact absurd hroom (by decide)
    | saturated _ _ _ _ => exact ⟨_, _, rfl⟩
    | first habsent _ _ _ => exact absurd hhas habsent
    | full habsent _ _ => exact absurd hhas habsent
    | fault hno _ => exact absurd hr hno

theorem Counts.unknown_iff (block : Nat) :
    (∃ u, t.unref block d = .error (.notFound (.dedupEntry block)) u) ↔
      ¬ t.Has d.image (.block block) := by
  have hanswers := h.answers hcovers (.unref block)
  rw [SharingCall.run] at hanswers
  generalize t.unref block d = result at hanswers
  constructor
  · rintro ⟨u, rfl⟩
    cases hanswers with
    | unknown habsent _ => exact habsent
  · intro habsent
    cases hanswers with
    | fewer hi hfound _ _ => exact absurd ⟨_, hi, hfound⟩ habsent
    | last hi hfound _ _ => exact absurd ⟨_, hi, hfound⟩ habsent
    | unknown _ _ => exact ⟨_, rfl⟩
    | fault hno _ => exact absurd hr hno

theorem Counts.refuses : t.Refuses d :=
  ⟨h.full_iff hcovers hr, h.saturated_iff hcovers hr, h.unknown_iff hcovers hr⟩

end Refusal

/-- **The dedup table is a map with reference counts.** Of a table that starts out with free entries only,
after any calls whose candidates it did not have: no two active entries have a content or a block in
common; each counts the references taken to its content since it last came into the table, less those
dropped to its block, and at least one; all others are the free entry. Every call returns what the map
says, a call that fails writes nothing, and on a device without faults each failure has its one cause. -/
theorem counts_references (hcovers : d₀.Covers t.start t.blocks)
    (hfree : ∀ i < t.capacity, t.entryAt d₀.image i = .free) (hreach : Reaches t d₀ history d) :
    t.Counts history d.image ∧ (∀ c, t.Answers d c (c.run t d)) ∧ (d.Reliable → t.Refuses d) := by
  obtain ⟨hcounts, hcovers⟩ := hreach.counts hcovers (counts_of_free hfree)
  exact ⟨hcounts, hcounts.answers hcovers, hcounts.refuses hcovers⟩

/-- A table of one block takes its first content in, and then counts one reference to block 7. -/
theorem counts_one_block : ∃ (t : DedupTable) (d₀ d : Device), t.Reaches d₀ [.created .zero 7] d ∧
    t.Counts [.created .zero 7] d.image ∧ (∀ c, t.Answers d c (c.run t d)) ∧ t.Refuses d := by
  obtain ⟨t, ht⟩ : ∃ t : DedupTable, t = ⟨0, 1⟩ := ⟨_, rfl⟩
  obtain ⟨b, hb⟩ : ∃ b : Block, b = .ofRecord DedupEntry.free.toRecord := ⟨_, rfl⟩
  obtain ⟨d₀, hd₀⟩ : ∃ d : Device, d = .ofImage ((Image.blank blockSize).write 0 b.bytes) := ⟨_, rfl⟩
  have hcapacity : t.capacity = recordsPerBlock := by rw [ht, capacity, Nat.one_mul]
  have hr : d₀.Reliable := hd₀ ▸ Device.reliable_ofImage _
  have hcovers : d₀.Covers t.start t.blocks := by
    rw [hd₀, ht]
    refine ⟨?_, by decide⟩
    rw [Device.size, Device.ofImage, Image.size_write_of_le (Nat.le_refl _)]
    exact Nat.le_refl _
  have hfree : ∀ i < t.capacity, t.entryAt d₀.image i = .free := by
    intro i hi
    rw [hcapacity] at hi
    rw [entryAt, hd₀, ht, Device.ofImage, Nat.div_eq_of_lt hi, Image.block_write_bytes, if_pos rfl,
      Nat.mod_eq_of_lt hi, hb, Block.record_ofRecord _ hi, DedupEntry.ofRecord_toRecord]
  have hempty (c : Criterion) : ¬ t.Has d₀.image c := by
    rintro ⟨i, hi, haccepts⟩
    rw [hfree i hi] at haccepts
    simp only [Criterion.accepts, Bool.and_eq_true] at haccepts
    exact absurd haccepts.1 (by decide)
  obtain ⟨-, hanswers, -⟩ := counts_references hcovers hfree .refl
  have hshare := hanswers (.share .zero 7)
  generalize hrun : (SharingCall.share .zero 7).run t d₀ = result at hshare
  cases hshare with
  | @first _ _ i d _ _ _ hd' =>
    have hfits : (SharingCall.share .zero 7).Fits t d₀.image := ⟨by decide, hempty _⟩
    have hreach := Reaches.ok .refl hfits hrun
    rw [SharingCall.event, if_neg (hempty _), List.nil_append] at hreach
    obtain ⟨hcounts, hcalls, hrefuses⟩ := counts_references hcovers hfree hreach
    exact ⟨t, d₀, d, hreach, hcounts, hcalls, hrefuses (hd'.reliable.2 hr)⟩
  | another hi hfound _ _ => exact absurd ⟨_, hi, hfound⟩ (hempty _)
  | saturated hi hfound _ _ => exact absurd ⟨_, hi, hfound⟩ (hempty _)
  | full _ hall _ =>
    have hactive := (hall 0 (hcapacity ▸ by decide)).2
    rw [hfree 0 (hcapacity ▸ by decide)] at hactive
    exact absurd hactive (by decide)
  | fault hno _ => exact absurd hr hno

end DedupTable

end BlockStore
