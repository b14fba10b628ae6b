import BlockStore.Proofs.Faultless
import BlockStore.Proofs.InStep
import BlockStore.Proofs.Queries

/-!
# A write that fails while a value is stored

A value is stored under a new key, and one write fails, once. Up to the moment where the value is
stored the key is discarded again, and nothing is left of it. Two writes are not covered by that.
The last one gives the entry its time, and if it fails the error is returned although the key has
its value. And if the value was refused for a reason of its own, so that the write which fails is
the one by which the key would be discarded, then the key stays behind with a block of zeros. No
other key is touched.

The device with the fault is compared with itself without one. They go in step until the write
fails, and from then on as well, because it does not fail again.

## Main definitions

* `FaultPlan.FailsOnce`: one write fails, and no read.
* `Device.Calmed`: a device, and the same device without its plan.
* `Volume.Stores`: a sound volume and its map, whatever the device will do.
* `Volume.place`, `Volume.stamp`: storing a value, and giving the entry its time.
* `Volume.Spends`: the number of transfers that an action makes.

## Main results

* `Device.parallel_calmed`, `parallel_spent`: in step up to the fault, and behind it.
* `Volume.stores_of_discarded`: what is left of a key whose value could not be stored.
* `Volume.discarded_of_failed_put`: what is left behind by a failed write.
* `Volume.kept_of_failed_put`: a write that leaves the key behind, on every plain volume with room.
-/

namespace BlockStore

/-- Reads do not fail, and no write but the one that is the transfer after `n` others. -/
structure FaultPlan.FailsOnce (plan : FaultPlan) (n : Nat) : Prop where
  read : ∀ i j b k, plan.failsRead i j b k = false
  write : ∀ i j b k, plan.failsWrite i j b k = true → i = n

theorem Block.count_eq (b : Block) : b.bytes.size / blockSize = 1 := by
  rw [b.size_eq, Nat.div_self (by decide)]

namespace Device

variable {plan : FaultPlan} {n : Nat} {d d' : Device}

theorem writeBlock_of_failsWrite {k : Nat} (hfail : d.faults.failsWrite d.attempted d.log.size k 1)
    (b : Block) : writeBlock k b d = .error (.device (.writeFault k)) d.tick := by
  simp only [writeBlock, write, checkWrite, b.count_eq, hfail]
  rfl

/-- `d` fails by the plan, and `d'` is the same device without one. -/
structure Calmed (plan : FaultPlan) (d d' : Device) : Prop where
  faults : d.faults = plan
  eq : d' = { d with faults := .none }

namespace Calmed

theorem tick (h : Calmed plan d d') : Calmed plan d.tick d'.tick :=
  ⟨h.faults, congrArg Device.tick h.eq⟩

theorem wrote (h : Calmed plan d d') (k : Nat) (b : Block) :
    Calmed plan (d.wrote k b) (d'.wrote k b) :=
  ⟨h.faults, congrArg (·.wrote k b) h.eq⟩

theorem readBlock_eq (hplan : plan.FailsOnce n) (h : Calmed plan d d') (k : Nat) :
    d'.readBlock k = d.readBlock k := by
  obtain ⟨rfl, rfl⟩ := h
  simp only [readBlock, checkRead, hplan.read]
  rfl

/-- A write that the plan lets through goes the same way on both. -/
theorem writeBlock_eq (h : Calmed plan d d') {k : Nat}
    (hpass : plan.failsWrite d.attempted d.log.size k 1 = false) (b : Block) :
    (writeBlock k b d = .ok () (d.wrote k b) ∧ writeBlock k b d' = .ok () (d'.wrote k b)) ∨
      ∃ e, writeBlock k b d = .error e d.tick ∧ writeBlock k b d' = .error e d'.tick := by
  have hcheck : d'.checkWrite k b.bytes = d.checkWrite k b.bytes := by
    obtain ⟨rfl, rfl⟩ := h
    simp only [checkWrite, b.count_eq, hpass]
    rfl
  simp only [writeBlock, write, hcheck]
  cases d.checkWrite k b.bytes with
  | ok => exact .inl ⟨rfl, rfl⟩
  | error e => exact .inr ⟨_, rfl, rfl⟩

end Calmed

/-- Up to the write that fails, the device is in step with itself without the plan. -/
theorem parallel_calmed (sb : Superblock) (hplan : plan.FailsOnce n) :
    Parallel sb (Calmed plan) fun d => d.faults = plan ∧ n < d.attempted where
  image h := by rw [h.eq]
  tick h := h.tick
  read h k _ := h.readBlock_eq hplan k
  write := by
    intro d d' h k _ _ b
    by_cases hfail : plan.failsWrite d.attempted d.log.size k 1 = true
    · exact .inr (.inr ⟨_, writeBlock_of_failsWrite (by rw [h.faults, hfail]) b, h.faults,
        Nat.lt_succ_of_le (Nat.le_of_eq (hplan.write _ _ _ _ hfail).symm)⟩)
    · rcases h.writeBlock_eq (Bool.not_eq_true _ ▸ hfail) b with ⟨hok, hok'⟩ | herror
      · exact .inl ⟨hok, hok', h.wrote k b⟩
      · exact .inr (.inl herror)
  stays_tick h := ⟨h.1, Nat.lt_succ_of_lt h.2⟩
  stays_write h _ _ := ⟨h.1, Nat.lt_succ_of_lt h.2⟩

/-- Behind that write it stays so. -/
theorem parallel_spent (sb : Superblock) (hplan : plan.FailsOnce n) :
    Parallel sb (fun d d' => Calmed plan d d' ∧ n < d.attempted) fun _ => False where
  image h := by rw [h.1.eq]
  tick h := ⟨h.1.tick, Nat.lt_succ_of_lt h.2⟩
  read h k _ := h.1.readBlock_eq hplan k
  write := by
    rintro d d' ⟨h, hlate⟩ k - - b
    have hpass : plan.failsWrite d.attempted d.log.size k 1 = false :=
      Bool.eq_false_iff.2 fun hfail => absurd (hplan.write _ _ _ _ hfail) (Nat.ne_of_gt hlate)
    rcases h.writeBlock_eq hpass b with ⟨hok, hok'⟩ | herror
    · exact .inl ⟨hok, hok', h.wrote k b, Nat.lt_succ_of_lt hlate⟩
    · exact .inr (.inl herror)
  stays_tick := False.elim
  stays_write h := h.elim

end Device

namespace Volume

variable {sb : Superblock} {r : Prop} {plan : FaultPlan} {n : Nat} {v v' u t y : Volume} {w : View}
  {free : List Nat} {P : Block → Prop} {σ : Nat → Nat} {s : Nat} {key : Key}

/-! ### The volume without its faults -/

theorem Seated.calmed (h : v.Seated sb) (hplan : v.device.faults = plan) :
    Twin sb (Device.Calmed plan) v (v.withFaults .none) := ⟨h, rfl, rfl, hplan, rfl⟩

theorem Twin.eq_withFaults (ht : Twin sb (Device.Calmed plan) v v') :
    v' = v.withFaults .none ∧ v = v'.withFaults plan := by
  obtain ⟨-, hsb, hallocator, hplan, hdevice⟩ := ht
  have hv' : v' = v.withFaults .none := by
    cases v'
    simp only at hsb hallocator hdevice
    subst hsb hallocator hdevice
    rfl
  refine ⟨hv', ?_⟩
  rw [hv', ← hplan]
  rfl

/-- Behind a volume that goes in step without its faults, all is as behind the other one. -/
theorem Twin.shows (ht : Twin sb (Device.Calmed plan) v v') (h : v'.Shows sb r w free) :
    v.Shows sb v.device.Reliable w free := by
  rw [ht.eq_withFaults.2]
  exact h.withFaults plan

/-- A volume on a reliable device, and what it is with another plan. -/
theorem Shows.calmed_withFaults (h : v.Shows sb True w free) (plan : FaultPlan) :
    Twin sb (Device.Calmed plan) (v.withFaults plan) v := by
  have hcalm : (v.withFaults plan).withFaults .none = v := by
    rw [← (h.reliable.2 trivial).faults]
    rfl
  have hfaults : (v.withFaults plan).device.faults = plan := rfl
  have htwin := (h.withFaults plan).seated.calmed hfaults
  rwa [hcalm] at htwin

/-- A file has the length of a file. -/
def Bounded (v : Volume) : Prop := v.device.limit.isSome → v.device.size < 1 <<< 63

/-- Edits leave the plan as it is, and the length of the device. -/
theorem Edited.calm (hu : Edited sb v u) (h : v.Seated sb) (hv : v.Bounded) :
    u.device.faults = v.device.faults ∧ u.Bounded := by
  have hsame : u.device.faults = v.device.faults ∧ u.device.limit = v.device.limit := by
    induction hu with
    | refl => exact ⟨rfl, rfl⟩
    | tick _ ih => exact ih
    | edit _ _ ih => exact ih
  refine ⟨hsame.1, fun hg => ?_⟩
  rw [hsame.2] at hg
  exact Nat.lt_of_le_of_lt (Nat.le_of_eq (hu.sameMargin h).size) (hv hg)

theorem Shows.calmed (h : v.Shows sb r w free) (hv : v.Bounded) :
    (v.withFaults .none).Shows sb True w free := by
  have hcalm := h.withFaults .none
  exact ⟨hcalm.mounted, hcalm.superblock, hcalm.reliable.trans (iff_true_intro ⟨rfl, hv⟩),
    hcalm.view, hcalm.free⟩

/-- The volume is sound and stores this map, whatever its device will do. -/
def Stores (v : Volume) (sb : Superblock) (M : KeyMap) : Prop := ∃ r P σ, v.Holding sb r P σ M

theorem Shows.stores (h : v.Shows sb r w free) (hw : w.Sound sb P σ) :
    v.Stores sb (w.contents sb) :=
  ⟨r, P, σ, h.holding hw⟩

/-- The queries depend on the superblock and on what is read of the device. -/
theorem Reads.congr {M : KeyMap} (h : v'.Reads M) (hsb : v'.superblock = v.superblock)
    (hread : ∀ k, v'.device.readBlock k = v.device.readBlock k) : v.Reads M := by
  have hentries : v'.keyTable.entries v'.device = v.keyTable.entries v.device := by
    rw [keyTable, keyTable, hsb]
    exact KeyTable.entries_congr fun k _ => hread _
  have hlookup (key : Key) : v'.lookup key = v.lookup key :=
    congrArg (fun l => KeyTable.findKey key (KeyTable.activeOf l)) hentries
  have hvalue (s : Nat) : v'.valueBlock s = v.valueBlock s := by
    simp only [valueBlock, readPointer, hsb, hread]
  refine ⟨fun key => ?_, fun key => ?_, ?_⟩
  · rw [← h.get key]
    simp only [Volume.get, hlookup, hvalue, hread]
  · rw [← h.contains key]
    simp only [Volume.contains, hlookup]
  · have hlist : v'.list = v.list := congrArg
      (fun l => do
        let items ← collect (KeyTable.activeOf l)
        return items.map Prod.snd) hentries
    rw [← hlist]
    exact h.list

/-- If reads do not fail, the queries answer what the map says. -/
theorem Stores.reads {M : KeyMap} (h : v.Stores sb M) (hplan : v.device.faults.FailsOnce n)
    (hv : v.Bounded) : v.Reads M := by
  obtain ⟨r, P, σ, w, free, hshows, hw, rfl⟩ := h
  have hcalmed : Device.Calmed v.device.faults v.device (v.withFaults .none).device := ⟨rfl, rfl⟩
  have hreads := (hshows.calmed hv).reads trivial hw
  exact hreads.congr rfl fun k => hcalmed.readBlock_eq hplan k

/-! ### Storing and discarding -/

/-- Discards a slot as far as that can be done. -/
def tryDiscard (slot : Nat) : VolumeM Unit := do
  try discardSlot slot
  catch _ => pure ()

theorem exists_tryDiscard (s : Nat) (v : Volume) : ∃ u, tryDiscard s v = .ok () u := by
  cases h : discardSlot s v with
  | ok _ u => exact ⟨u, catch_of_ok h⟩
  | error e u => exact ⟨u, catch_of_error h⟩

theorem runs_tryDiscard (h : v.Shows sb r w free) (hw : w.Sound sb P σ) (hs : w.Active s) :
    Runs sb r (fun _ => True) (tryDiscard s) v
      (fun _ u => u.Stores sb ((w.contents sb).erase (w.keys s).key) ∨
        ¬ r ∧ u.Stores sb (w.contents sb)) fun _ _ => False := by
  let A : (Nat → KeyEntry) → KeyMap → Prop := fun _ M =>
    M = w.contents sb ∨ M = (w.contents sb).erase (w.keys s).key
  have hrun := Runs.passes (h.passes ⟨σ, hw, .inl rfl⟩)
    (runs_discardSlot (A := A) h hw hs (.inr rfl))
  refine .tryCatch ((hrun.weaken fun _ _ => trivial).mono (fun _ u hq => .inl ?_)
    fun _ _ he => he) ?_
  · rw [← hw.contents_discarded h.fits hs]
    exact hq.1.stores (hw.discarded hs)
  · rintro _ u ⟨hr, w', free', hu, τ, hw', hM | hM⟩
    · exact .pure (.inr ⟨hr, hM ▸ hu.stores hw'⟩)
    · exact .pure (.inl (hM ▸ hu.stores hw'))

theorem follows_tryDiscard {D : Device → Device → Prop} (hpar : Device.Parallel sb D fun _ => False)
    (ht : Twin sb D v v') (hs : s < sb.slots) :
    Follows sb D (fun _ => False) (tryDiscard s) v v' fun _ => True :=
  .tryCatch (follows_discardSlot hpar ht hs) ht.seated (fun _ _ _ ht => .pure ht trivial)
    fun _ _ _ hX => hX.elim

/-- A value could not be stored, and the key is discarded. Then the key is gone, except where the
value is refused without the fault as well: the fault may then have hit the discarding, and all may
be as before. -/
theorem stores_of_discarded (hplan : plan.FailsOnce n) (h : v.Shows sb r w free)
    (hfaults : v.device.faults = plan) (hv : v.Bounded) (hw : w.Sound sb P σ) (hs : w.Active s)
    {b : Block} (hP : P b) {e : StoreError} (hstore : store s b v = .error e t)
    (hdiscard : tryDiscard s t = .ok () y) :
    y.Stores sb ((w.contents sb).erase (w.keys s).key) ∨
      y.Stores sb (w.contents sb) ∧ ∃ t', store s b (v.withFaults .none) = .error e t' := by
  have hfollows := follows_store (Device.parallel_calmed sb hplan) (h.seated.calmed hfaults)
    (hw.active_lt hs) b
  obtain ⟨hedited, ⟨t', hstore', ht⟩ | hX⟩ := hfollows.of_error hstore
  · -- The value was refused, and nothing has changed. The fault is still to come, or will not come.
    obtain ⟨hwhy, -⟩ := (runs_store_underway (h.calmed hv) hw hs hP).of_error hstore'
    obtain ⟨-, hcalm, -⟩ := hwhy trivial
    rcases (runs_tryDiscard (ht.shows hcalm) hw hs).of_ok hdiscard with hgone | ⟨-, hkept⟩
    · exact .inl hgone
    · exact .inr ⟨hkept, t', hstore'⟩
  · -- The write has failed, so discarding the key goes as on a reliable device.
    obtain ⟨-, w', free', hshows, τ, hw', hunder⟩ :=
      (runs_store_underway h hw hs hP).of_error hstore
    have hs' := hunder.active hs
    have ht : Twin sb (fun d d' => Device.Calmed plan d d' ∧ n < d.attempted) t
        (t.withFaults .none) := ⟨hshows.seated, rfl, rfl, ⟨hX.1, rfl⟩, hX.2⟩
    obtain ⟨y', hdiscard', -, -, hy⟩ := (follows_tryDiscard (Device.parallel_spent sb hplan) ht
      (hw'.active_lt hs')).of_ok hdiscard
    have hy : Twin sb (Device.Calmed plan) y y' :=
      ⟨hy.seated, hy.superblock, hy.allocator, hy.device.1⟩
    have hcalm := hshows.calmed (hedited.calm h.seated hv).2
    rcases (runs_tryDiscard hcalm hw' hs').of_ok hdiscard' with
      ⟨_, _, _, w'', free'', hy', hw'', hM⟩ | ⟨hno, -⟩
    · rw [← hunder.erase_eq, ← hM]
      exact .inl ((hy.shows hy').stores hw'')
    · exact absurd trivial hno

/-! ### The whole operation -/

/-- `put` up to the time of the entry. -/
def place (key : Key) (data : ByteArray) (created : Timestamp) : VolumeM Nat := do
  let (slot, isNew) ← obtain key created
  try store slot (.ofBytes data)
  catch e => do
    if isNew then tryDiscard slot
    throw e
  return slot

/-- Giving the entry of a slot its time, and returning the slot. -/
def stamp (slot : Nat) (stored : Timestamp) : VolumeM Nat := do
  let keys := (← get).keyTable
  onDevice (keys.touch slot stored)
  return slot

theorem put_eq_place {data : ByteArray} (hsize : data.size ≤ blockSize) (key : Key)
    (created stored : Timestamp) :
    put key data created stored = place key data created >>= fun slot => stamp slot stored := by
  rw [put_eq, if_neg (Nat.not_lt.2 hsize), place]
  simp only [bind_assoc, pure_bind]
  rfl

/-- If the time cannot be written, all is as before. -/
theorem shows_of_stamp (h : v.Shows sb r w free) (hw : w.Sound sb P σ) (hs : w.Active s)
    {stored : Timestamp} {e : StoreError} (hstamp : stamp s stored v = .error e u) :
    u.Shows sb r w free := by
  have hrun : Runs sb r (fun _ => True) (stamp s stored) v (fun _ _ => True)
      fun _ u => u.Shows sb r w free := by
    refine .get_bind ?_
    rw [h.keyTable_eq]
    exact ((runs_touch h (hw.active_lt hs) hs stored trivial).mono (fun _ _ hq => hq)
      fun _ _ he => he.1).bind fun _ _ _ => .pure trivial
  exact hrun.of_error hstamp

section Place

variable {data : ByteArray} {created stored : Timestamp} {e : StoreError}

theorem place_of_store_ok {isNew : Bool} (hobtain : obtain key created v = .ok (s, isNew) u)
    (hstore : store s (.ofBytes data) u = .ok () t) : place key data created v = .ok s t := by
  rw [place, bind_of_ok hobtain]
  exact bind_of_ok (catch_of_ok hstore)

/-- A new key whose value cannot be stored is discarded. -/
theorem place_of_store_error (hobtain : obtain key created v = .ok (s, true) u)
    (hstore : store s (.ofBytes data) u = .error e t) (hdiscard : tryDiscard s t = .ok () y) :
    place key data created v = .error e y := by
  rw [place, bind_of_ok hobtain]
  exact bind_of_error ((catch_of_error hstore).trans (bind_of_ok hdiscard))

/-- Storing a value under a new key up to the time of the entry, when one write may fail. -/
theorem place_cases (hplan : plan.FailsOnce n) (h : v.Shows sb True w free)
    (hw : w.Sound sb (fun _ => True) σ) (hnew : w.contents sb key = none) (data : ByteArray)
    (created : Timestamp) :
    (∃ s u r w' free' τ b, place key data created (v.withFaults plan) = .ok s u ∧
        u.Shows sb r w' free' ∧ w'.Sound sb (fun _ => True) τ ∧ w'.Active s ∧
        sb.Alike (fun _ => True) (.ofBytes data) b ∧
        w'.contents sb = (w.contents sb).insert key b) ∨
      ∃ e u, place key data created (v.withFaults plan) = .error e u ∧
        (u.Stores sb (w.contents sb) ∨ u.Stores sb ((w.contents sb).insert key .zero) ∧
          ∃ t, place key data created v = .error e t) := by
  have hv : (v.withFaults plan).Bounded := (h.reliable.2 trivial).size_lt
  have hshows := h.withFaults plan
  have htwin := h.calmed_withFaults plan
  rcases (runs_obtain hshows hw key created).result with
    ⟨⟨s, isNew⟩, x, hobtain, -, hx⟩ | ⟨e, x, hobtain, -, hx, -⟩
  swap
  · exact .inr ⟨e, x, bind_of_error hobtain, .inl ⟨_, _, _, hx⟩⟩
  have hsnew : isNew = true ∧ ∃ rest, free = s :: rest ∧
      x.Shows sb (v.withFaults plan).device.Reliable (w.created s key created) rest := by
    rcases hx with ⟨-, hs, hkey, -⟩ | ⟨hisNew, -, hrest⟩
    · rw [← hkey, hw.contents_of_active hs] at hnew
      cases hnew
    · exact ⟨hisNew, hrest⟩
  obtain ⟨rfl, rest, hfree, hx⟩ := hsnew
  obtain ⟨hs, hclear⟩ := h.mem_free.1 (hfree ▸ List.mem_cons_self)
  have hw₁ := hw.created h.fits hs hclear hnew created
  have hmap₁ := hw.contents_created h.fits hs hclear hnew created
  have hactive := View.active_created w s key created
  have hkey : ((w.created s key created).keys s).key = key := by
    rw [View.keys_created_self]
    rfl
  rcases (runs_store_underway hx hw₁ hactive (b := .ofBytes data) trivial).result with
    ⟨_, t, hstore, -, -, w', free', τ, b, ht, hw', -, hkeys, halike, hmap, -⟩ | ⟨e, t, hstore, -, -⟩
  · refine .inl ⟨s, t, _, w', free', τ, b, place_of_store_ok hobtain hstore, ht, hw', ?_, halike,
      ?_⟩
    · rw [View.Active, hkeys]
      exact hactive
    · rw [hmap, hkey, hmap₁, KeyMap.insert_insert]
  · obtain ⟨y, hdiscard⟩ := exists_tryDiscard s t
    refine .inr ⟨e, y, place_of_store_error hobtain hstore hdiscard, ?_⟩
    obtain ⟨x', hobtain', -, hedited, hx'⟩ :=
      (follows_obtain (Device.parallel_calmed sb hplan) htwin key created).of_ok hobtain
    obtain ⟨hfaults, hbound⟩ := hedited.calm hshows.seated hv
    rcases stores_of_discarded hplan hx hfaults hbound hw₁ hactive trivial hstore hdiscard with
      hgone | ⟨hkept, t', hstore'⟩
    · rw [hkey, hmap₁, KeyMap.erase_insert _ _ _ hnew] at hgone
      exact .inl hgone
    · rw [hmap₁] at hkept
      rw [← hx'.eq_withFaults.1] at hstore'
      obtain ⟨z, hz⟩ := exists_tryDiscard s t'
      exact .inr ⟨hkept, z, place_of_store_error hobtain' hstore' hz⟩

theorem Faultless.contents_of_absent {l : Layout} (h : Faultless l v)
    (hnew : v.contains key = .ok false) :
    ∃ w free, v.Shows l.superblock True w free ∧ w.Sound l.superblock (fun _ => True) (fun _ => 0) ∧
      w.contents l.superblock key = none := by
  obtain ⟨w, free, hv, hw⟩ := h.exact
  have hcontains := (hv.contains_eq trivial key).symm.trans hnew
  exact ⟨w, free, hv, hw.sound, by simpa using Except.ok.inj hcontains⟩

/-- What a volume stores after `put` has failed is what its queries answer. -/
theorem Stores.reads_of_put {M : KeyMap} (hu : u.Stores sb M) (h : v.Shows sb True w free)
    (hplan : plan.FailsOnce n)
    (hput : put key data created stored (v.withFaults plan) = .error e u) : u.Reads M := by
  have hshows := h.withFaults plan
  have hedited := hshows.seated.edited_after (.put key data created stored)
  simp only [Operation.after, Operation.run, bind_of_error hput] at hedited
  obtain ⟨hfaults, hbound⟩ := hedited.calm hshows.seated (h.reliable.2 trivial).size_lt
  exact hu.reads (by rw [hfaults]; exact hplan) hbound

end Place

/-! ### The write that is not covered -/

/-- The action makes `k` transfers if it succeeds, and no more if it fails. -/
def Spends {α : Type} (act : VolumeM α) (k : Nat) : Prop :=
  ∀ v, match act v with
    | .ok _ u => u.device.attempted = v.device.attempted + k
    | .error _ u => u.device.attempted ≤ v.device.attempted + k

theorem onDevice_writeEntry_of_le {keys : KeyTable} (hs : keys.slots ≤ s) (e : KeyEntry) :
    onDevice (keys.writeEntry s e) v = .error (.slotState s .withinKeyTable) v := by
  rw [KeyTable.writeEntry, onDevice_bind]
  refine bind_of_error ?_
  simp only [onDevice, query, KeyTable.demandSlot, if_neg (Nat.not_lt.2 hs)]

namespace Spends

variable {α β : Type} {act : VolumeM α} {f : α → VolumeM β} {j k : Nat}

theorem of_ok (h : Spends act k) {a : α} (hrun : act v = .ok a u) :
    u.device.attempted = v.device.attempted + k := by
  have hv := h v
  rw [hrun] at hv
  exact hv

theorem of_error (h : Spends act k) {e : StoreError} (hrun : act v = .error e u) :
    u.device.attempted ≤ v.device.attempted + k := by
  have hv := h v
  rw [hrun] at hv
  exact hv

theorem pure (a : α) : Spends (pure a) 0 := fun _ => rfl

theorem throw (e : StoreError) (k : Nat) : Spends (throw e : VolumeM α) k :=
  fun _ => Nat.le_add_right _ _

theorem bind (h : Spends act j) (hf : ∀ a, Spends (f a) k) : Spends (act >>= f) (j + k) := by
  intro v
  cases hrun : act v with
  | error e u =>
    rw [bind_of_error hrun]
    exact Nat.le_trans (h.of_error hrun) (by omega)
  | ok a u =>
    have hu := h.of_ok hrun
    rw [bind_of_ok hrun]
    cases hrun' : f a u with
    | ok b t => exact ((hf a).of_ok hrun').trans (by omega)
    | error e t => exact Nat.le_trans ((hf a).of_error hrun') (by omega)

theorem get_bind {f : Volume → VolumeM β} (h : ∀ v, Spends (f v) k) : Spends (get >>= f) k :=
  fun v => h v v

theorem look (f : Volume → Except StoreError α) : Spends (Volume.look f) 1 := by
  intro v
  rw [Volume.look]
  cases f v with
  | ok => exact rfl
  | error => exact Nat.le_refl _

theorem writeBlock (n : Nat) (b : Block) : Spends (onDevice (Device.writeBlock n b)) 1 := by
  intro v
  rcases Device.writeBlock_cases v.device n b with hok | ⟨e, herror⟩
  · simp only [onDevice, hok]
    rfl
  · rw [onDevice_of_error herror]
    exact Nat.le_refl _

theorem writeEntry (keys : KeyTable) (s : Nat) (e : KeyEntry) :
    Spends (onDevice (keys.writeEntry s e)) 2 := by
  intro v
  by_cases hs : s < keys.slots
  · rw [onDevice_writeEntry hs, RecordTable.write, onDevice_bind, onDevice_look]
    exact (look _).bind (fun _ => writeBlock _ _) v
  · rw [onDevice_writeEntry_of_le (Nat.le_of_not_lt hs)]
    exact Nat.le_add_right _ _

theorem acquire : Spends acquire 1 := by
  intro v
  rw [Volume.acquire_eq, changeAllocator_apply, Allocator.take]
  cases v.allocator.free with
  | nil => exact Nat.le_add_right _ _
  | cons s rest =>
    by_cases hs : s < v.allocator.slots
    · simp only [Allocator.assign, if_pos hs, Bind.bind, EStateM.bind, Device.write]
      generalize v.device.checkWrite _ _ = check
      cases check with
      | ok => exact rfl
      | error => exact Nat.le_refl _
    · simp only [Allocator.assign, if_neg hs]
      exact Nat.le_add_right _ _

theorem create (key : Key) (now : Timestamp) : Spends (create key now) 5 := by
  have hallocate (keys : KeyTable) (s : Nat) : Spends (onDevice (keys.allocate s key now)) 3 := by
    rw [KeyTable.allocate, onDevice_bind, onDevice_look]
    refine (look _).bind (k := 2) fun e => ?_
    split
    · exact writeEntry _ _ _
    · exact throw _ _
  refine (look _).bind (k := 4) fun found => ?_
  split
  · exact fun _ => Nat.le_add_right _ _
  · exact acquire.bind (k := 3) fun s => get_bind fun v => (hallocate _ s).bind fun _ => pure s

theorem writeData (s : Nat) (b : Block) : Spends (writeData s b) 1 :=
  get_bind fun _ => writeBlock _ _

end Spends

/-- A key that is not there is created. -/
theorem obtain_of_absent {x : Missing} (h : v.lookup key = .error (.notFound x)) (now : Timestamp) :
    obtain key now v = (create key now >>= fun s => pure (s, true)) v.tick := by
  have hlook : look (fun v => .ok (v.lookup key)) v = .ok (v.lookup key) v.tick := rfl
  rw [obtain, bind_of_ok hlook, h]

theorem writeEntry_of_failsWrite
    (hfails : ∀ j b k, v.device.faults.failsWrite (v.device.attempted + 1) j b k) (keys : KeyTable)
    (s : Nat) (e : KeyEntry) : ∃ e' u, onDevice (keys.writeEntry s e) v = .error e' u := by
  by_cases hs : s < keys.slots
  · rw [onDevice_writeEntry hs, RecordTable.write, onDevice_bind, onDevice_look]
    cases hread : v.device.readBlock (keys.records.blockOf s) with
    | error e' => exact ⟨e', v.tick, bind_of_error (by simp only [look, hread])⟩
    | ok b =>
      have hlook :
          look (fun v => v.device.readBlock (keys.records.blockOf s)) v = .ok b v.tick := by
        simp only [look, hread]
      rw [bind_of_ok hlook]
      exact ⟨_, _, onDevice_of_error (Device.writeBlock_of_failsWrite (hfails _ _ _) _)⟩
  · exact ⟨_, _, onDevice_writeEntry_of_le (Nat.le_of_not_lt hs) e⟩

/-- Two blocks are read before the entry is written. -/
theorem stamp_of_failsWrite
    (hfails : ∀ j b k, v.device.faults.failsWrite (v.device.attempted + 2) j b k) (s : Nat)
    (stored : Timestamp) : ∃ e u, stamp s stored v = .error e u := by
  suffices htouch : ∃ e u, onDevice (v.keyTable.touch s stored) v = .error e u by
    obtain ⟨e, u, hrun⟩ := htouch
    refine ⟨e, u, ?_⟩
    change (onDevice (v.keyTable.touch s stored) >>= fun _ => pure s) v = _
    exact bind_of_error hrun
  rw [KeyTable.touch, onDevice_bind, onDevice_look]
  cases hread : v.keyTable.activeEntry v.device s with
  | error e => exact ⟨e, v.tick, bind_of_error (by simp only [look, hread])⟩
  | ok entry =>
    have hlook : look (fun u => v.keyTable.activeEntry u.device s) v = .ok entry v.tick := by
      simp only [look, hread]
    rw [bind_of_ok hlook]
    exact writeEntry_of_failsWrite (v := v.tick) hfails _ _ _

section Late

variable (h : v.Shows sb True w free) (hw : w.Sound sb (fun _ => True) σ)
  (hnew : w.contents sb key = none) (hroom : free ≠ [])
  (hplan : plan.FailsOnce (v.device.attempted + 9))

include h hw hnew hroom hplan

/-- The slot of a new key is taken with the first six transfers. -/
theorem obtain_before_fault (now : Timestamp) :
    ∃ s rest x x', free = s :: rest ∧ obtain key now (v.withFaults plan) = .ok (s, true) x ∧
      x.device.attempted = v.device.attempted + 6 ∧ Twin sb (Device.Calmed plan) x x' ∧
      x'.Shows sb True (w.created s key now) rest := by
  have hpar := Device.parallel_calmed sb hplan
  have htwin := h.calmed_withFaults plan
  have hlookup : (v.withFaults plan).lookup key = .error (.notFound (.key key)) := by
    rw [← htwin.lookup_eq hpar]
    rcases h.lookup_cases key with ⟨s, -, hs⟩ | ⟨hnone, -⟩ | ⟨-, hno⟩
    · rw [View.contents_eq_none_iff, hs] at hnew
      cases hnew
    · exact hnone
    · exact absurd trivial hno
  have hspends : Spends (create key now >>= fun s => pure (s, true)) 5 :=
    (Spends.create key now).bind fun s => .pure (s, true)
  have hfollows := follows_obtain hpar htwin key now
  cases hobtain : obtain key now (v.withFaults plan) with
  | error e x =>
    -- It does not fail by plan, since it is too early, and not because there was no room.
    rcases (hfollows.of_error hobtain).2 with ⟨x', hcalm, -⟩ | ⟨-, hlate⟩
    · obtain ⟨-, hwhy⟩ := (runs_obtain h hw key now).of_error hcalm
      exact absurd (hwhy trivial).2.2.1 hroom
    · rw [obtain_of_absent hlookup] at hobtain
      have hearly : x.device.attempted ≤ v.device.attempted + 1 + 5 := hspends.of_error hobtain
      omega
  | ok a x =>
    obtain ⟨x', hcalm, -, -, hx⟩ := hfollows.of_ok hobtain
    have hspent : x.device.attempted = v.device.attempted + 1 + 5 := by
      rw [obtain_of_absent hlookup] at hobtain
      exact hspends.of_ok hobtain
    rcases (runs_obtain h hw key now).of_ok hcalm with ⟨-, hactive, hkey, -⟩ |
      ⟨hisNew, -, rest, hfree, hx'⟩
    · rw [← hkey, hw.contents_of_active hactive] at hnew
      cases hnew
    · exact ⟨a.1, rest, x, x', hfree, by rw [← hisNew], hspent, hx, hx'⟩

/-- On a plain volume the value is stored with the seventh. -/
theorem place_before_fault (hd : sb.isDedup = false) (data : ByteArray) (now : Timestamp) :
    ∃ s t, place key data now (v.withFaults plan) = .ok s t ∧ t.device.faults = plan ∧
      t.device.attempted = v.device.attempted + 7 := by
  obtain ⟨s, rest, x, x', hfree, hobtain, hspent, hx, hshows⟩ :=
    obtain_before_fault h hw hnew hroom hplan now
  obtain ⟨hs, hclear⟩ := h.mem_free.1 (hfree ▸ List.mem_cons_self)
  have hfollows := follows_store (Device.parallel_calmed sb hplan) hx hs (.ofBytes data)
  have hstore_eq : store s (.ofBytes data) x = writeData s (.ofBytes data) x := by
    rw [store, get_bind_apply, hx.seated.dedupTable_eq, hd]
    rfl
  cases hstore : store s (.ofBytes data) x with
  | error e t =>
    rcases (hfollows.of_error hstore).2 with ⟨t', hcalm, -⟩ | ⟨-, hlate⟩
    · have hsound := hw.created h.fits hs hclear hnew now
      obtain ⟨hno, -⟩ := (runs_store_underway hshows hsound (View.active_created w s key now)
        trivial).of_error hcalm |>.1 trivial
      rw [hd] at hno
      cases hno
    · rw [hstore_eq] at hstore
      have hearly := (Spends.writeData s (.ofBytes data)).of_error hstore
      omega
  | ok a t =>
    obtain ⟨t', -, -, -, ht⟩ := hfollows.of_ok hstore
    refine ⟨s, t, place_of_store_ok hobtain hstore, ht.device.faults, ?_⟩
    rw [hstore_eq] at hstore
    have hspent' := (Spends.writeData s (.ofBytes data)).of_ok hstore
    omega

end Late

/-- **A key that outlives the failed write.** On a plain volume with room for another key, let the
write fail that gives the entry its time, which is the tenth transfer. An error is returned, and the
key is there with its value. -/
theorem kept_of_failed_put {l : Layout} (h : Faultless l v) (hd : l.dedup = false)
    (hroom : v.allocator.free ≠ []) (hnew : v.contains key = .ok false) {data : ByteArray}
    (hsize : data.size ≤ blockSize) (hplan : plan.FailsOnce (v.device.attempted + 9))
    (hfails : ∀ j b k, plan.failsWrite (v.device.attempted + 9) j b k)
    (created stored : Timestamp) :
    ∃ e u, put key data created stored (v.withFaults plan) = .error e u ∧
      u.get key = .ok (.ofBytes data) := by
  obtain ⟨w, free, hv, hw, habsent⟩ := h.contents_of_absent hnew
  have hplain : l.superblock.isDedup = false := by rw [l.isDedup_superblock, hd]
  have hfree : free ≠ [] := by
    rw [← hv.free]
    exact hroom
  obtain ⟨s, t, hplace, hfaults, hspent⟩ :=
    place_before_fault hv hw habsent hfree hplan hplain data created
  obtain ⟨e, u, hstamp⟩ := stamp_of_failsWrite (v := t) (fun j b k => by
    rw [hfaults, hspent]
    exact hfails j b k) s stored
  have hput : put key data created stored (v.withFaults plan) = .error e u := by
    rw [put_eq_place hsize, bind_of_ok hplace, hstamp]
  refine ⟨e, u, hput, ?_⟩
  rcases place_cases hplan hv hw habsent data created with
    ⟨s', y, r, w', free', τ, b, hplace', hy, hw', hs', halike, hmap⟩ | ⟨e', y, hplace', -⟩
  · rw [hplace] at hplace'
    cases hplace'
    have hu := ((shows_of_stamp hy hw' hs' hstamp).stores hw').reads_of_put hv hplan hput
    rw [Superblock.Alike, if_neg (by rw [hplain]; decide)] at halike
    rw [hu.get, hmap, KeyMap.insert_self, halike]
  · rw [hplace] at hplace'
    cases hplace'

/-! ### What a failed write leaves behind -/

/-- **A failed write while a new key gets its value.** One write fails, and no other. No other key
is touched. If the value had not been stored, the key is gone again, or the value would have been
refused anyway and the key has a block of zeros. If it had been stored, and only the time of the
entry was missing, the key stays with its value. -/
theorem discarded_of_failed_put {l : Layout} {data : ByteArray} {created stored : Timestamp}
    {e : StoreError} (h : Faultless l v) (hnew : v.contains key = .ok false)
    (hsize : data.size ≤ blockSize) (hplan : plan.FailsOnce n)
    (hput : put key data created stored (v.withFaults plan) = .error e u) :
    (∀ k, k ≠ key → u.get k = v.get k ∧ u.contains k = v.contains k) ∧
      match place key data created (v.withFaults plan) with
      | .ok _ _ => ∃ b, l.superblock.Alike (fun _ => True) (.ofBytes data) b ∧ u.get key = .ok b
      | .error _ _ => u.contains key = .ok false ∨
          u.get key = .ok .zero ∧ ∃ t, put key data created stored v = .error e t := by
  obtain ⟨w, free, hv, hw, habsent⟩ := h.contents_of_absent hnew
  have hreads := hv.reads trivial hw
  have hothers {M : KeyMap} (hM : u.Reads M)
      (hsame : ∀ k, k ≠ key → M k = w.contents l.superblock k) :
      ∀ k, k ≠ key → u.get k = v.get k ∧ u.contains k = v.contains k := by
    intro k hk
    rw [hM.get, hM.contains, hreads.get, hreads.contains, hsame k hk]
    exact ⟨rfl, rfl⟩
  have hrun := hput
  rw [put_eq_place hsize] at hrun
  rcases place_cases hplan hv hw habsent data created with
    ⟨s, x, r, w', free', τ, b, hplace, hx, hw', hs, halike, hmap⟩ | ⟨e', x, hplace, hx⟩
  · rw [bind_of_ok hplace] at hrun
    have hu := ((shows_of_stamp hx hw' hs hrun).stores hw').reads_of_put hv hplan hput
    rw [hmap] at hu
    refine ⟨hothers hu fun k hk => KeyMap.insert_of_ne _ _ _ _ hk, ?_⟩
    rw [hplace]
    exact ⟨b, halike, by rw [hu.get, KeyMap.insert_self]⟩
  · rw [bind_of_error hplace] at hrun
    cases hrun
    rw [hplace]
    rcases hx with hgone | ⟨hkept, t, hrefused⟩
    · have hu := hgone.reads_of_put hv hplan hput
      exact ⟨hothers hu fun _ _ => rfl, .inl (by rw [hu.contains, habsent]; rfl)⟩
    · have hu := hkept.reads_of_put hv hplan hput
      refine ⟨hothers hu fun k hk => KeyMap.insert_of_ne _ _ _ _ hk, .inr ⟨?_, t, ?_⟩⟩
      · rw [hu.get, KeyMap.insert_self]
      · rw [put_eq_place hsize, bind_of_error hrefused]

/-- A value on a plain volume with two slots, of which the entry does not get its time. -/
theorem discarded_two_slots :
    ∃ v d' n e u, format ⟨2, false, by decide, by decide⟩
        (.ofImage (.blank (Layout.totalSize 2 false))) = .ok v d' ∧
      put .zero (zeros 5) ⟨0⟩ ⟨0⟩ (v.withFaults ⟨fun _ _ _ _ => false, fun i _ _ _ => i == n⟩) =
        .error e u ∧
      u.get .zero = .ok (.ofBytes (zeros 5)) ∧
      (∀ k, k ≠ .zero → u.get k = v.get k ∧ u.contains k = v.contains k) ∧
      match place .zero (zeros 5) ⟨0⟩
        (v.withFaults ⟨fun _ _ _ _ => false, fun i _ _ _ => i == n⟩) with
      | .ok _ _ => ∃ b, (Layout.superblock ⟨2, false, by decide, by decide⟩).Alike (fun _ => True)
          (.ofBytes (zeros 5)) b ∧ u.get .zero = .ok b
      | .error _ _ => u.contains .zero = .ok false ∨
          u.get .zero = .ok .zero ∧ ∃ t, put .zero (zeros 5) ⟨0⟩ ⟨0⟩ v = .error e t := by
  have hd := Device.reliable_ofImage (.blank (Layout.totalSize 2 false))
  rcases format_cases ⟨2, false, by decide, by decide⟩
    (.ofImage (.blank (Layout.totalSize 2 false))) with ⟨v, hv, -⟩ | ⟨-, hfail⟩
  · have hfaultless := Faultless.format hd hv
    have hshows := shows_of_format hv
    have hnew : v.contains .zero = .ok false := by
      rw [hshows.contains_eq hd, View.contents_blank]
      rfl
    have hroom : v.allocator.free ≠ [] := by
      rw [hshows.free]
      exact List.ne_nil_of_mem (hshows.mem_free.2 ⟨(by decide : 0 < 2), rfl⟩)
    have hplan : FaultPlan.FailsOnce
        ⟨fun _ _ _ _ => false, fun i _ _ _ => i == v.device.attempted + 9⟩
        (v.device.attempted + 9) := ⟨fun _ _ _ _ => rfl, fun _ _ _ _ h => by simpa using h⟩
    have hsize : (zeros 5).size ≤ blockSize := by decide
    obtain ⟨e, u, hput, hkept⟩ := kept_of_failed_put hfaultless rfl hroom hnew hsize hplan
      (fun _ _ _ => by simp) ⟨0⟩ ⟨0⟩
    exact ⟨v, _, _, e, u, hv, hput, hkept, discarded_of_failed_put hfaultless hnew hsize hplan hput⟩
  · exact absurd ⟨hd, Nat.le_refl _⟩ hfail

end Volume

end BlockStore
