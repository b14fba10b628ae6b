import BlockStore.Proofs.Cursors
import BlockStore.Proofs.Visits

/-!
# Updates of one key entry

The four updates of the key table replace one entry of a map from slots. Each reads the block that holds
the entry, which it shares with 127 others, and writes it back. Three of them look at the entry before that
and refuse one that is not as they demand; freeing takes any entry, also one with damaged flags.

Whether an update is done is a matter of the contents alone as long as the device is reliable. What it does
when it is done, and that it does nothing when it is not, holds on any device. A volume adds to this only
where its regions lie: a rename writes in front of everything else that is asked about the key.

## Main definitions

* `KeyTable.Inside`, `KeyTable.entryAt`: a table inside a device, and its entries as a map.
* `KeyTable.Updates`: one entry is replaced, by one write, and nothing else has changed.
* `EntryUpdate`: the updates; `EntryUpdate.run`, `admits` and `apply` are the action, the entries that it
  takes, and what it makes of them.

## Main results

* `Image.byte_writeRecord`: writing a record back changes 32 bytes.
* `EntryUpdate.run_cases`: an update is done, or it changes nothing; `exists_run_ok_iff`: which of the two.
* `KeyTable.Inside.lookup_eq_ok_iff`: where a key is found on a reliable device.
* `Volume.rename_cases`, `Volume.stat_of_updates`: renaming a key, and what is known of it then.
* `updates_one_slot`: updates are map updates, and renaming keeps what a key has.
-/

namespace BlockStore

/-- Writing back a block with one record replaced leaves all bytes but those of the record. -/
theorem Image.byte_writeRecord (im : Image) (start i : Nat) (r : Record) {j : Nat}
    (hj : ¬ (start * blockSize + i * recordSize ≤ j ∧
      j < start * blockSize + i * recordSize + recordSize)) :
    (im.write (start + i / recordsPerBlock)
      ((im.block (start + i / recordsPerBlock)).setRecord (i % recordsPerBlock) r).bytes).byte j =
        im.byte j := by
  obtain ⟨n, hn⟩ : ∃ n, n = start + i / recordsPerBlock := ⟨_, rfl⟩
  have hmod : i % recordsPerBlock < recordsPerBlock := Nat.mod_lt _ (by decide)
  have hpos : start * blockSize + i * recordSize = n * blockSize + i % recordsPerBlock * recordSize := by
    have hdiv := Nat.div_add_mod i recordsPerBlock
    rw [hn]
    simp only [recordsPerBlock, recordSize, blockSize] at *
    omega
  rw [← hn, byte_write _ _ ⟨1, by rw [Block.size_eq, Nat.mul_one]⟩, Block.size_eq]
  split
  case isTrue hin =>
    rw [Block.byteAt_setRecord _ _ hmod, if_neg (by omega), ← byte_mul_add _ _ (by omega),
      Nat.add_sub_cancel' hin.1]
  case isFalse => rfl

namespace Device

variable {α β : Type} {d : Device} {f : Device → Except StoreError α}

theorem look_bind_of_ok {a : α} (h : f d = .ok a) (g : α → DeviceM β) :
    (look f >>= g) d = g a d.tick := by
  simp only [bind, EStateM.bind, look, h]

theorem look_bind_of_error {e : StoreError} (h : f d = .error e) (g : α → DeviceM β) :
    (look f >>= g) d = .error e d.tick := by
  simp only [bind, EStateM.bind, look, h]

end Device

theorem KeyEntry.isActive_rekey (e : KeyEntry) (key : Key) :
    ({ e with key } : KeyEntry).isActive = e.isActive := rfl

namespace KeyTable

/-- The table lies inside the device. -/
def Inside (t : KeyTable) (d : Device) : Prop := d.Covers t.start (ceilDiv t.slots recordsPerBlock)

/-- The entry of a slot on an image. -/
def entryAt (t : KeyTable) (im : Image) (s : Nat) : KeyEntry :=
  .ofRecord ((im.block (t.start + s / recordsPerBlock)).record (s % recordsPerBlock))

/-- The entry of one slot is replaced by one write, and nothing else has changed. -/
structure Updates (t : KeyTable) (d d' : Device) (slot : Nat) (e : KeyEntry) : Prop where
  entry : t.entryAt d'.image slot = e
  others : ∀ s, s ≠ slot → t.entryAt d'.image s = t.entryAt d.image s
  bytes : ∀ i, ¬ (t.start * blockSize + slot * recordSize ≤ i ∧
    i < t.start * blockSize + slot * recordSize + recordSize) → d'.image.byte i = d.image.byte i
  size : d'.size = d.size
  reliable : d'.Reliable ↔ d.Reliable
  written : ∃ b : Block, d'.log = d.log.push ⟨t.start + slot / recordsPerBlock, b.bytes⟩ ∧
    d'.image = d.image.write (t.start + slot / recordsPerBlock) b.bytes

variable {t : KeyTable} {d d' : Device} {s : Nat}

theorem Inside.tick (h : t.Inside d) : t.Inside d.tick := Device.Covers.tick h

theorem Updates.of_tick {e : KeyEntry} (h : t.Updates d.tick d' s e) : t.Updates d d' s e :=
  ⟨h.entry, h.others, h.bytes, h.size, h.reliable.trans Device.reliable_tick, h.written⟩

theorem Inside.holds (h : t.Inside d) (hs : s < t.slots) : d.Holds (t.start + s / recordsPerBlock) := by
  refine Device.Covers.holds h ?_
  simp only [ceilDiv, recordsPerBlock, recordSize, blockSize] at *
  omega

/-- The entry of a slot inside the device is read as it is, unless the device is not reliable. -/
theorem Inside.entry_cases (h : t.Inside d) (hs : s < t.slots) :
    t.entry d s = .ok (t.entryAt d.image s) ∨ (∃ e, t.entry d s = .error e) ∧ ¬ d.Reliable := by
  rw [entry_of_lt hs]
  rcases Device.readBlock_eq (h.holds hs) with hok | ⟨⟨e, herror⟩, hr⟩
  · rw [hok]
    exact .inl rfl
  · rw [herror]
    exact .inr ⟨⟨_, rfl⟩, hr⟩

theorem Inside.entry_eq (h : t.Inside d) (hr : d.Reliable) (hs : s < t.slots) :
    t.entry d s = .ok (t.entryAt d.image s) :=
  (h.entry_cases hs).resolve_right fun hfault => hfault.2 hr

theorem entry_of_le (hs : t.slots ≤ s) : t.entry d s = .error (.slotState s .withinKeyTable) := by
  simp only [entry, demandSlot, if_neg (Nat.not_lt.2 hs), bind, Except.bind]

theorem entryAt_write (t : KeyTable) (im : Image) (slot : Nat) (e : KeyEntry) (s : Nat) :
    t.entryAt (im.write (t.start + slot / recordsPerBlock)
      ((im.block (t.start + slot / recordsPerBlock)).setRecord (slot % recordsPerBlock)
        e.toRecord).bytes) s = if s = slot then e else t.entryAt im s := by
  rw [entryAt, Image.record_write, entryAt]
  split
  · exact KeyEntry.ofRecord_toRecord e
  · rfl

/-- Writing back the block with the entry replaced changes nothing else. -/
theorem Inside.updates_wrote (h : t.Inside d) (hs : s < t.slots) (e : KeyEntry) :
    t.Updates d (d.tick.wrote (t.start + s / recordsPerBlock)
      ((d.image.block (t.start + s / recordsPerBlock)).setRecord (s % recordsPerBlock) e.toRecord)) s e where
  entry := (entryAt_write t d.image s e s).trans (if_pos rfl)
  others s' hs' := (entryAt_write t d.image s e s').trans (if_neg hs')
  bytes _ hi := Image.byte_writeRecord _ _ _ _ hi
  size := Device.Holds.size_wrote (h.holds hs).tick _
  reliable := (Device.Holds.reliable_wrote (h.holds hs).tick _).trans Device.reliable_tick
  written := ⟨_, rfl, rfl⟩

/-- Writing an entry replaces it, or it changes nothing. -/
theorem Inside.writeEntry_cases (h : t.Inside d) (e : KeyEntry) :
    (s < t.slots ∧ ∃ d', t.writeEntry s e d = .ok () d' ∧ t.Updates d d' s e) ∨
      (∃ err d', t.writeEntry s e d = .error err d' ∧ d'.image = d.image ∧ d'.log = d.log) ∧
        ¬ (d.Reliable ∧ s < t.slots) := by
  by_cases hs : s < t.slots
  · have hholds := h.holds hs
    have hread := Device.readBlock_eq hholds
    have hdemand : t.writeEntry s e d = t.records.write s e.toRecord d := by
      simp only [writeEntry, query, demandSlot, if_pos hs, bind, EStateM.bind]
    rw [hdemand, RecordTable.write]
    rcases hread with hok | ⟨⟨err, herror⟩, hr⟩
    · rw [Device.look_bind_of_ok (f := (·.readBlock (t.records.blockOf s))) hok]
      rcases Device.writeBlock_eq hholds.tick _ with hdone | ⟨⟨err, herror⟩, hr⟩
      · exact .inl ⟨hs, _, hdone, h.updates_wrote hs e⟩
      · exact .inr ⟨⟨_, _, herror, rfl, rfl⟩, fun hboth => hr (Device.reliable_tick.2 hboth.1)⟩
    · rw [Device.look_bind_of_error (f := (·.readBlock (t.records.blockOf s))) herror]
      exact .inr ⟨⟨_, _, rfl, rfl, rfl⟩, fun hboth => hr hboth.1⟩
  · refine .inr ⟨⟨.slotState s .withinKeyTable, d, ?_, rfl, rfl⟩, fun hboth => hs hboth.2⟩
    simp only [writeEntry, query, demandSlot, if_neg hs, bind, EStateM.bind]

end KeyTable

/-! ### The updates -/

/-- An update of one entry of the key table. -/
inductive EntryUpdate where
  /-- A free slot gets a key. -/
  | allocate (key : Key) (timestamp : Timestamp)
  /-- A slot becomes free. -/
  | free
  /-- An active slot gets another key. -/
  | rename (key : Key)
  /-- An active slot gets another timestamp. -/
  | touch (timestamp : Timestamp)

namespace EntryUpdate

/-- The action. -/
def run (u : EntryUpdate) (t : KeyTable) (slot : Nat) : DeviceM Unit :=
  match u with
  | .allocate key timestamp => t.allocate slot key timestamp
  | .free => t.free slot
  | .rename key => t.rename slot key
  | .touch timestamp => t.touch slot timestamp

/-- The entry is as the update demands. -/
def admits (u : EntryUpdate) (e : KeyEntry) : Bool :=
  match u with
  | .allocate .. => e.isFree
  | .free => true
  | .rename _ => e.isActive
  | .touch _ => e.isActive

/-- What the update makes of an entry. -/
def apply (u : EntryUpdate) (e : KeyEntry) : KeyEntry :=
  match u with
  | .allocate key timestamp => .active key timestamp
  | .free => .free
  | .rename key => { e with key }
  | .touch timestamp => { e with timestamp }

variable {t : KeyTable} {d : Device} {slot : Nat}

/-- An update that looks at the entry fails if the entry cannot be read. -/
theorem run_of_entry_error {u : EntryUpdate} (hu : u ≠ .free) {err : StoreError}
    (h : t.entry d slot = .error err) : u.run t slot d = .error err d.tick := by
  have hactive : t.activeEntry d slot = .error err := by
    simp only [KeyTable.activeEntry, h, bind, Except.bind]
  cases u with
  | allocate key timestamp => exact Device.look_bind_of_error (f := (t.entry · slot)) h _
  | free => exact absurd rfl hu
  | rename key => exact Device.look_bind_of_error (f := (t.activeEntry · slot)) hactive _
  | touch timestamp => exact Device.look_bind_of_error (f := (t.activeEntry · slot)) hactive _

/-- An action on an entry that must be active. -/
theorem amend_cases {e : KeyEntry} (h : t.entry d slot = .ok e) (g : KeyEntry → DeviceM Unit) :
    e.isActive = true ∧ (Device.look (t.activeEntry · slot) >>= g) d = g e d.tick ∨
      e.isActive = false ∧ ∃ err, (Device.look (t.activeEntry · slot) >>= g) d = .error err d.tick := by
  have hactive : t.activeEntry d slot = if e.isActive then .ok e else .error (.slotState slot .active) := by
    simp only [KeyTable.activeEntry, h, bind, Except.bind]
    rfl
  by_cases he : e.isActive
  · rw [if_pos he] at hactive
    exact .inl ⟨he, Device.look_bind_of_ok (f := (t.activeEntry · slot)) hactive g⟩
  · rw [if_neg he] at hactive
    exact .inr ⟨Bool.eq_false_iff.2 he, _,
      Device.look_bind_of_error (f := (t.activeEntry · slot)) hactive g⟩

/-- An update that looks at the entry writes it if it is as demanded, and refuses it if not. -/
theorem run_of_entry_ok {u : EntryUpdate} (hu : u ≠ .free) {e : KeyEntry} (h : t.entry d slot = .ok e) :
    u.admits e = true ∧ u.run t slot d = t.writeEntry slot (u.apply e) d.tick ∨
      u.admits e = false ∧ ∃ err, u.run t slot d = .error err d.tick := by
  cases u with
  | allocate key timestamp =>
    have hrun := Device.look_bind_of_ok (f := (t.entry · slot)) h fun e =>
      if e.isFree then t.writeEntry slot (.active key timestamp) else throw (.slotState slot .free)
    by_cases hfree : e.isFree
    · rw [if_pos hfree] at hrun
      exact .inl ⟨hfree, hrun⟩
    · rw [if_neg hfree] at hrun
      exact .inr ⟨Bool.eq_false_iff.2 hfree, _, hrun⟩
  | free => exact absurd rfl hu
  | rename key => exact amend_cases h _
  | touch timestamp => exact amend_cases h _

/-- An update is done, or it changes nothing; and that happens only to an entry that is not as demanded, to
a slot outside the table, or on a device that is not reliable. -/
theorem run_cases (h : t.Inside d) (u : EntryUpdate) (slot : Nat) :
    (slot < t.slots ∧ u.admits (t.entryAt d.image slot) = true ∧
      ∃ d', u.run t slot d = .ok () d' ∧ t.Updates d d' slot (u.apply (t.entryAt d.image slot))) ∨
      (∃ err d', u.run t slot d = .error err d' ∧ d'.image = d.image ∧ d'.log = d.log) ∧
        ¬ (d.Reliable ∧ slot < t.slots ∧ u.admits (t.entryAt d.image slot) = true) := by
  by_cases hu : u = .free
  · subst hu
    rcases h.writeEntry_cases .free with ⟨hs, hdone⟩ | ⟨hfail, hwhy⟩
    · exact .inl ⟨hs, rfl, hdone⟩
    · exact .inr ⟨hfail, fun hall => hwhy ⟨hall.1, hall.2.1⟩⟩
  by_cases hs : slot < t.slots
  · rcases h.entry_cases hs with hok | ⟨⟨err, herror⟩, hr⟩
    · rcases run_of_entry_ok hu hok with ⟨hadmits, hrun⟩ | ⟨hadmits, err, hrun⟩
      · rcases KeyTable.Inside.writeEntry_cases (d := d.tick) h.tick (u.apply (t.entryAt d.image slot)) with
          ⟨-, d', hdone, hupdates⟩ | ⟨⟨err, d', hfail, hsame⟩, hwhy⟩
        · exact .inl ⟨hs, hadmits, d', hrun.trans hdone, hupdates.of_tick⟩
        · exact .inr ⟨⟨err, d', hrun.trans hfail, hsame⟩,
            fun hall => hwhy ⟨Device.reliable_tick.2 hall.1, hs⟩⟩
      · refine .inr ⟨⟨err, _, hrun, rfl, rfl⟩, fun hall => ?_⟩
        rw [hadmits] at hall
        exact absurd hall.2.2 Bool.false_ne_true
    · exact .inr ⟨⟨err, _, run_of_entry_error hu herror, rfl, rfl⟩, fun hall => hr hall.1⟩
  · have herror := KeyTable.entry_of_le (d := d) (Nat.not_lt.1 hs)
    exact .inr ⟨⟨_, _, run_of_entry_error hu herror, rfl, rfl⟩, fun hall => hs hall.2.1⟩

/-- An update that is done was admitted. -/
theorem of_run_ok (h : t.Inside d) {u : EntryUpdate} {d' : Device} (hrun : u.run t slot d = .ok () d') :
    slot < t.slots ∧ u.admits (t.entryAt d.image slot) = true ∧
      t.Updates d d' slot (u.apply (t.entryAt d.image slot)) := by
  rcases run_cases h u slot with ⟨hs, hadmits, d₁, hdone, hupdates⟩ | ⟨⟨_, _, hfail, -⟩, -⟩
  · cases hdone.symm.trans hrun
    exact ⟨hs, hadmits, hupdates⟩
  · cases hfail.symm.trans hrun

/-- An update that fails has changed nothing. -/
theorem of_run_error (h : t.Inside d) {u : EntryUpdate} {err : StoreError} {d' : Device}
    (hrun : u.run t slot d = .error err d') : d'.image = d.image ∧ d'.log = d.log := by
  rcases run_cases h u slot with ⟨-, -, _, hdone, -⟩ | ⟨⟨_, _, hfail, hsame⟩, -⟩
  · cases hdone.symm.trans hrun
  · cases hfail.symm.trans hrun
    exact hsame

/-- On a reliable device an update that is admitted is done. -/
theorem exists_run_ok_iff (h : t.Inside d) (hr : d.Reliable) (u : EntryUpdate) (slot : Nat) :
    (∃ d', u.run t slot d = .ok () d') ↔
      slot < t.slots ∧ u.admits (t.entryAt d.image slot) = true := by
  constructor
  · rintro ⟨d', hrun⟩
    obtain ⟨hs, hadmits, -⟩ := of_run_ok h hrun
    exact ⟨hs, hadmits⟩
  · intro hadmits
    rcases run_cases h u slot with ⟨-, -, d', hdone, -⟩ | ⟨-, hwhy⟩
    · exact ⟨d', hdone⟩
    · exact absurd ⟨hr, hadmits⟩ hwhy

end EntryUpdate

/-! ### Renaming a key -/

namespace KeyTable

variable {t : KeyTable} {d : Device} {s : Nat} {key : Key}

/-- A reliable device is scanned to the end. -/
theorem Inside.scanned (h : t.Inside d) (hr : d.Reliable) :
    t.Scanned d t.slots (t.entryAt d.image) none :=
  ⟨fun _ hs => h.entry_eq hr hs, Nat.le_refl _, fun _ => rfl, nofun⟩

/-- The slot holds the key. -/
def HoldsKey (t : KeyTable) (im : Image) (key : Key) (s : Nat) : Prop :=
  (t.entryAt im s).isActive = true ∧ (t.entryAt im s).key = key

/-- A key is looked up in the lowest slot that holds it. -/
theorem Inside.lookup_eq_ok_iff (h : t.Inside d) (hr : d.Reliable) :
    t.lookup d key = .ok s ↔
      s < t.slots ∧ t.HoldsKey d.image key s ∧ ∀ s' < s, ¬ t.HoldsKey d.image key s' := by
  have hfind : ((List.range t.slots).find? fun s =>
      (t.entryAt d.image s).isActive && (t.entryAt d.image s).key == key) = some s ↔
        s < t.slots ∧ t.HoldsKey d.image key s ∧ ∀ s' < s, ¬ t.HoldsKey d.image key s' := by
    rw [List.find?_range_eq_some]
    simp only [HoldsKey, List.mem_range, Bool.and_eq_true, beq_iff_eq, Bool.not_eq_true',
      ← Bool.not_eq_true]
    exact and_left_comm
  rw [(h.scanned hr).lookup_eq, ← hfind]
  generalize List.find? _ _ = found
  cases found with
  | none => simp
  | some s' => simp

theorem Inside.lookup_tick (h : t.Inside d) (hr : d.Reliable) : t.lookup d.tick key = t.lookup d key := by
  have hticked := h.tick.scanned (Device.reliable_tick.2 hr)
  rw [hticked.lookup_eq, (h.scanned hr).lookup_eq]
  rfl

/-- No slot holds a key that is not found. -/
theorem Inside.not_holdsKey (h : t.Inside d) (hr : d.Reliable) (hnone : ∀ s, t.lookup d key ≠ .ok s) :
    ∀ s < t.slots, ¬ t.HoldsKey d.image key s := by
  intro s
  -- The lowest slot that holds it would be found.
  induction s using Nat.strongRecOn with
  | _ s ih =>
    intro hs hkey
    exact hnone s ((h.lookup_eq_ok_iff hr).2 ⟨hs, hkey, fun s' hs' => ih s' hs' (Nat.lt_trans hs' hs)⟩)

theorem Updates.inside {e : KeyEntry} (h : t.Updates d d' s e) (hin : t.Inside d) : t.Inside d' :=
  Device.Covers.of_size_eq hin h.size

/-- An active entry that gets a key which no slot holds is where that key is found. -/
theorem Updates.lookup_eq {e : KeyEntry} (h : t.Updates d d' s e) (hin : t.Inside d) (hr : d.Reliable)
    (hs : s < t.slots) (hactive : e.isActive = true) (hkey : e.key = key)
    (hnone : ∀ s', t.lookup d key ≠ .ok s') : t.lookup d' key = .ok s := by
  have habsent := hin.not_holdsKey hr hnone
  refine ((h.inside hin).lookup_eq_ok_iff (h.reliable.2 hr)).2 ⟨hs, ?_, fun s' hs' hholds => ?_⟩
  · rw [HoldsKey, h.entry]
    exact ⟨hactive, hkey⟩
  · rw [HoldsKey, h.others s' (Nat.ne_of_lt hs')] at hholds
    exact habsent s' (Nat.lt_trans hs' hs) hholds

/-- Another block of a reliable device is read as before. -/
theorem Updates.readBlock_eq {e : KeyEntry} (h : t.Updates d d' s e) (hr : d.Reliable) {n : Nat}
    (hn : d.Holds n) (hne : n ≠ t.start + s / recordsPerBlock) : d'.readBlock n = d.readBlock n := by
  obtain ⟨b, -, himage⟩ := h.written
  have hn' : d'.Holds n := hn.of_size_eq h.size
  rw [Device.Alike.readBlock_eq hr hn, Device.Alike.readBlock_eq (h.reliable.2 hr) hn', himage,
    Image.block_write_bytes, if_neg hne.symm]

end KeyTable

namespace Volume

variable {v : Volume} {old new : Key} {s : Nat}

theorem inside_keyTable (hfits : v.superblock.Fits v.device.size) : v.keyTable.Inside v.device := by
  have hpos := hfits.slots_pos
  have hlast := hfits.keys_le_dedupStart (Nat.sub_lt hpos Nat.one_pos)
  have hdata := hfits.dedupStart_le_dataStart
  refine hfits.covers ?_
  change v.superblock.keysStart + ceilDiv v.superblock.slots recordsPerBlock ≤ _
  simp only [ceilDiv, recordsPerBlock, recordSize, blockSize] at *
  omega

theorem lookup_ne_ok_of_contains (h : v.contains new = .ok false) (s : Nat) : v.lookup new ≠ .ok s := by
  intro hs
  rw [contains, hs] at h
  cases h

/-- Renaming a key to one that is not stored is the update of its entry. -/
theorem rename_cases (hfits : v.superblock.Fits v.device.size) (hr : v.device.Reliable)
    (hold : v.lookup old = .ok s) (hnew : v.contains new = .ok false) :
    ∃ d', rename old new v = .ok () { v with device := d' } ∧
      v.keyTable.Updates v.device d' s { v.keyTable.entryAt v.device.image s with key := new } := by
  have hin := inside_keyTable hfits
  have hne : old ≠ new := fun heq => lookup_ne_ok_of_contains hnew s (heq ▸ hold)
  obtain ⟨hs, ⟨hactive, -⟩, -⟩ := (hin.lookup_eq_ok_iff hr).1 hold
  have hnew' : v.tick.contains new = .ok false := by
    rw [contains] at hnew ⊢
    have htick : v.tick.lookup new = v.lookup new := hin.lookup_tick hr
    rw [htick]
    exact hnew
  have hr' : v.device.tick.tick.Reliable := Device.reliable_tick.2 (Device.reliable_tick.2 hr)
  obtain ⟨d', hdone⟩ := (EntryUpdate.exists_run_ok_iff hin.tick.tick hr' (.rename new) s).2 ⟨hs, hactive⟩
  obtain ⟨-, -, hupdates⟩ := EntryUpdate.of_run_ok hin.tick.tick hdone
  refine ⟨d', ?_, hupdates.of_tick.of_tick⟩
  have hfirst : look (·.lookup old) v = .ok s v.tick := by simp only [look, hold]
  have hsecond : look (·.contains new) v.tick = .ok false v.tick.tick := by simp only [look, hnew']
  rw [rename, bind_of_ok hfirst, if_pos hne, bind_of_ok hsecond, if_neg Bool.false_ne_true]
  change onDevice (v.keyTable.rename s new) v.tick.tick = _
  have hrenamed : v.keyTable.rename s new v.device.tick.tick = .ok () d' := hdone
  simp only [onDevice, tick, hrenamed]

/-- The value of the key stays where it is, and the dedup table counts the same references to it. -/
theorem stat_of_updates (hfits : v.superblock.Fits v.device.size) (hr : v.device.Reliable)
    (hold : v.lookup old = .ok s) {d' : Device} (hupdates : v.keyTable.Updates v.device d' s
      { v.keyTable.entryAt v.device.image s with key := new })
    (hnew : Volume.lookup { v with device := d' } new = .ok s) :
    Volume.stat { v with device := d' } new = (v.stat old).map fun info => { info with key := new } := by
  have hin := inside_keyTable hfits
  obtain ⟨hs, -, -⟩ := (hin.lookup_eq_ok_iff hr).1 hold
  -- Neither the data block of the slot nor the dedup table is where the entry is.
  have hread {n : Nat} (hlt : n < v.superblock.dataStart + v.superblock.slots)
      (hle : v.superblock.dedupStart ≤ n) : d'.readBlock n = v.device.readBlock n := by
    have hbefore := hfits.keys_le_dedupStart hs
    refine hupdates.readBlock_eq hr (hfits.covers hlt) ?_
    change n ≠ v.superblock.keysStart + s / recordsPerBlock
    omega
  have hdata := hfits.dedupStart_le_dataStart
  have hs' : s < v.superblock.slots := hs
  have hentry := hin.entry_eq hr hs
  have hentry' : v.keyTable.entry d' s = .ok { v.keyTable.entryAt v.device.image s with key := new } := by
    rw [(hupdates.inside hin).entry_eq (hupdates.reliable.2 hr) hs, hupdates.entry]
  have hvalue : Volume.valueBlock { v with device := d' } s = v.valueBlock s := by
    have hblock := hread (n := v.superblock.dataBlock s) (by rw [Superblock.dataBlock]; omega)
      (by rw [Superblock.dataBlock]; omega)
    simp only [valueBlock, readPointer, hblock]
  have hrefs (b : Nat) : Volume.sharedRefs { v with device := d' } b = v.sharedRefs b := by
    have hlocate : DedupTable.locate ⟨v.superblock.dedupStart, v.superblock.dedupBlocks⟩ d' (.block b) =
        DedupTable.locate ⟨v.superblock.dedupStart, v.superblock.dedupBlocks⟩ v.device (.block b) := by
      refine DedupTable.locate_congr fun k hk => hread ?_ (Nat.le_add_right _ _)
      have hdedup := hfits.dedup_le_dataStart
      change k < v.superblock.dedupBlocks at hk
      change v.superblock.dedupStart + k < _
      omega
    simp only [sharedRefs, dedupTable]
    cases v.superblock.isDedup with
    | true => simp only [if_true, hlocate]
    | false => rfl
  have hkeys : Volume.keyTable { v with device := d' } = v.keyTable := rfl
  simp only [stat, hnew, hold, hkeys, hentry, hentry', hvalue, hrefs, bind, Except.bind]
  cases v.valueBlock s with
  | error e => rfl
  | ok block =>
    cases block with
    | none => rfl
    | some b =>
      dsimp only
      cases v.sharedRefs b <;> rfl

end Volume

/-- **Updates of the key table are map updates on one slot.** On any contents of a device, for a table that
lies inside it and any slot: an update that succeeds was admitted by the entry of a slot of the table, and
has made of it what it says; every other entry and every other byte is as before. One that fails has
changed nothing. If the device is reliable, an update succeeds exactly if the slot is in the table and its
entry is as demanded. So renaming a key to one that is not stored is one device write, after which the new
key has the slot, the timestamp, the block and the references of the old one. -/
theorem updates_one_slot :
    (∀ (u : EntryUpdate) (t : KeyTable) (d : Device) (slot : Nat), t.Inside d →
      (∀ d', u.run t slot d = .ok () d' →
        slot < t.slots ∧ u.admits (t.entryAt d.image slot) = true ∧
          t.Updates d d' slot (u.apply (t.entryAt d.image slot))) ∧
      (∀ e d', u.run t slot d = .error e d' → d'.image = d.image ∧ d'.log = d.log) ∧
      (d.Reliable →
        ((∃ d', u.run t slot d = .ok () d') ↔
          slot < t.slots ∧ u.admits (t.entryAt d.image slot) = true) ∧
        ∀ s < t.slots, t.entry d s = .ok (t.entryAt d.image s))) ∧
    ∀ (v : Volume) (old new : Key) (s : Nat), v.superblock.Fits v.device.size → v.device.Reliable →
      v.lookup old = .ok s → v.contains new = .ok false →
      ∃ d', Volume.rename old new v = .ok () { v with device := d' } ∧
        v.keyTable.Updates v.device d' s { v.keyTable.entryAt v.device.image s with key := new } ∧
        Volume.lookup { v with device := d' } new = .ok s ∧
        Volume.stat { v with device := d' } new =
          (v.stat old).map fun info => { info with key := new } := by
  constructor
  · intro u t d slot h
    exact ⟨fun _ => EntryUpdate.of_run_ok h, fun _ _ => EntryUpdate.of_run_error h,
      fun hr => ⟨u.exists_run_ok_iff h hr slot, fun _ hs => h.entry_eq hr hs⟩⟩
  · intro v old new s hfits hr hold hnew
    have hin := Volume.inside_keyTable hfits
    obtain ⟨hs, ⟨hactive, -⟩, -⟩ := (hin.lookup_eq_ok_iff hr).1 hold
    obtain ⟨d', hrun, hupdates⟩ := Volume.rename_cases hfits hr hold hnew
    have hactive' := (KeyEntry.isActive_rekey (v.keyTable.entryAt v.device.image s) new).trans hactive
    have hlookup := hupdates.lookup_eq hin hr hs hactive' rfl (Volume.lookup_ne_ok_of_contains hnew)
    exact ⟨d', hrun, hupdates, hlookup, Volume.stat_of_updates hfits hr hold hupdates hlookup⟩

/-- A key of a volume with two slots is renamed; its slot could also be freed. -/
theorem updates_one_slot_two_slots :
    ∃ v s d' d'', Volume.lookup v .zero = .ok s ∧
      Volume.rename .zero (.ofBytes (bytesOf (List.replicate 20 1)) 0) v = .ok () { v with device := d' } ∧
      Volume.lookup { v with device := d' } (.ofBytes (bytesOf (List.replicate 20 1)) 0) = .ok s ∧
      EntryUpdate.free.run v.keyTable s v.device = .ok () d'' := by
  obtain ⟨l, hl⟩ : ∃ l : Layout, l = ⟨2, false, by decide, by decide⟩ := ⟨_, rfl⟩
  obtain ⟨v, -, hv⟩ := Volume.exists_format_blank l
  have hsound := View.sound_blank l.superblock (fun _ => True) fun _ => 0
  rcases (Volume.runs_create hv hsound .zero ⟨0⟩).result with ⟨s, u, -, -, hnew, rest, hfree, hu⟩ |
    ⟨e, u, -, -, -, he⟩
  · obtain ⟨hs, hclear⟩ := hv.mem_free.1 (hfree ▸ List.mem_cons_self)
    have hcontents := hsound.contents_created hv.fits hs hclear hnew ⟨0⟩
    have hold := hu.contains_eq trivial .zero
    have habsent := hu.contains_eq trivial (.ofBytes (bytesOf (List.replicate 20 1)) 0)
    rw [hcontents, View.contents_blank] at hold habsent
    have hother : Key.ofBytes (bytesOf (List.replicate 20 1)) 0 ≠ .zero := by decide
    rw [KeyMap.insert_self] at hold
    rw [KeyMap.insert_of_ne _ _ _ _ hother] at habsent
    have hfits : u.superblock.Fits u.device.size := hu.mounted.fits
    have hr : u.device.Reliable := hu.reliable.2 trivial
    have hin := Volume.inside_keyTable hfits
    cases hlookup : u.lookup .zero with
    | error e =>
      rw [Volume.contains, hlookup] at hold
      cases e <;> cases hold
    | ok t =>
      obtain ⟨ht, -⟩ := (hin.lookup_eq_ok_iff hr).1 hlookup
      obtain ⟨d', hrun, -, hrenamed, -⟩ := updates_one_slot.2 u .zero _ t hfits hr hlookup habsent
      obtain ⟨d'', hrun'⟩ := ((updates_one_slot.1 .free u.keyTable u.device t hin).2.2 hr).1.2 ⟨ht, rfl⟩
      exact ⟨u, t, d', d'', hlookup, hrun, hrenamed, hrun'⟩
  · obtain ⟨-, ⟨-, hstored⟩ | ⟨-, hfull, -⟩⟩ := he trivial
    · exact absurd (congrFun (View.contents_blank l.superblock) .zero) hstored
    · rw [hl] at hfull
      exact absurd hfull (by decide)

end BlockStore
