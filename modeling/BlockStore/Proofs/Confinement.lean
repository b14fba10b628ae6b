import BlockStore.Proofs.Consistency
import BlockStore.Proofs.InStep

/-!
# Where a volume writes

The bitmap, the tables and the pointers of an image may say anything. Whatever they say, and whichever
transfers fail, all that is done to a mounted volume is written between the first block of the bitmap
and the last data block; block 0 and all that lies behind the data stay as they are.

So what the device does with other blocks never matters. A file, which would grow where a device of
fixed size refuses, gives the same results and is left with the same bytes.

## Main definitions

* `Update`: what may change a mounted volume; `Update.session` mounts a device and runs updates.
* `Superblock.Confines`: a device has been written inside the volume only.
* `Device.Kin`: devices that differ in what they do outside the volume.

## Main results

* `Volume.follows_update`: one update on two devices in step.
* `Update.runAll_twin`: any number of them.
* `Update.session_confined`: a session on a device, and on one of its kin.
-/

namespace BlockStore

/-- What may change a mounted volume. -/
inductive Update where
  | create (key : Key) (now : Timestamp)
  | put (key : Key) (data : ByteArray) (created stored : Timestamp)
  | remove (key : Key)
  | rename (old new : Key)
  | check (order : VisitOrder) (repair : Bool)

namespace Update

/-- What an update returns. -/
inductive Outcome where
  | done
  | slot (s : Nat)
  | report (r : CheckReport)

/-- Does it. -/
def run : Update → VolumeM Outcome
  | create key now => return .slot (← Volume.create key now)
  | put key data created stored => return .slot (← Volume.put key data created stored)
  | remove key => do
    Volume.remove key
    return .done
  | rename old new => do
    Volume.rename old new
    return .done
  | check order repair => return .report (← Volume.checkVisiting order.visit repair)

/-- Runs updates one after the other, whether they succeed or not: what each of them returns, and the
volume afterwards. -/
def runAll : List Update → Volume → List (Except StoreError Outcome) × Volume
  | [], v => ([], v)
  | o :: rest, v =>
    match o.run v with
    | .ok a u => let (results, t) := runAll rest u; (.ok a :: results, t)
    | .error e u => let (results, t) := runAll rest u; (.error e :: results, t)

/-- Mounts a device, repaired first if asked to, and runs updates: what they return, or why the device
could not be mounted, and the device afterwards. -/
def session (order : VisitOrder) (repair : Bool) (updates : List Update) (d : Device) :
    Except StoreError (List (Except StoreError Outcome)) × Device :=
  match Volume.mountVisiting order.visit repair d with
  | .error e d => (.error e, d)
  | .ok v _ => let (results, u) := runAll updates v; (.ok results, u.device)

end Update

/-! ### Two devices -/

/-- A device `u` that was `d` has been written inside the volume only. -/
structure Superblock.Confines (sb : Superblock) (d u : Device) : Prop where
  /-- It has not grown. -/
  size : u.size = d.size
  /-- The writes since then are each one block of the volume, behind the superblock. -/
  log : ∃ writes : List Write, u.log.toList = d.log.toList ++ writes ∧
    ∀ w ∈ writes, w.count = 1 ∧ sb.bitmapStart ≤ w.block ∧ w.block < sb.dataStart + sb.slots
  /-- Block 0 is as it was. -/
  first : u.image.block 0 = d.image.block 0
  /-- So is every byte before the bitmap and behind the data. -/
  outside : ∀ n, n < sb.bitmapStart * blockSize ∨ (sb.dataStart + sb.slots) * blockSize ≤ n →
    u.image.byte n = d.image.byte n

/-- Two devices with the same contents and the same past differ only in what they do outside a volume:
one may be a file and the other not, and other writes may be planned to fail there. -/
structure Device.Kin (sb : Superblock) (d d' : Device) : Prop where
  image : d'.image = d.image
  /-- They can grow to the same length, or they have the length of a file. -/
  limit : d'.limit = d.limit ∨ d.size < 1 <<< 63
  attempted : d'.attempted = d.attempted
  log : d'.log = d.log
  failsRead : d'.faults.failsRead = d.faults.failsRead
  failsWrite : ∀ i j n k, sb.bitmapStart ≤ n → n < sb.dataStart + sb.slots →
    d'.faults.failsWrite i j n k = d.faults.failsWrite i j n k

namespace Device.Kin

variable {sb : Superblock} {d d' : Device}

theorem refl (sb : Superblock) (d : Device) : Kin sb d d :=
  ⟨rfl, .inl rfl, rfl, rfl, rfl, fun _ _ _ _ _ _ => rfl⟩

theorem size_eq (h : Kin sb d d') : d'.size = d.size := congrArg Image.size h.image

theorem covers (h : Kin sb d d') {n count : Nat} (hn : d.Covers n count) : d'.Covers n count :=
  hn.of_size_eq h.size_eq

theorem checkRead_eq (h : Kin sb d d') {n count : Nat} (hn : d.Covers n count) :
    d'.checkRead n count = d.checkRead n count := by
  rcases h.limit with hlimit | hsize
  · simp only [checkRead, checkHeld, h.size_eq, hlimit, h.attempted, h.log, h.failsRead]
  · rw [hn.checkRead_eq fun _ => hsize, (h.covers hn).checkRead_eq fun _ => h.size_eq ▸ hsize,
      h.attempted, h.log, h.failsRead]

theorem read_eq (h : Kin sb d d') {n count : Nat} (hn : d.Covers n count) :
    d'.read n count = d.read n count := by
  rw [read, read, h.checkRead_eq hn, h.image]

theorem readBlock_eq (h : Kin sb d d') {n : Nat} (hn : d.Holds n) : d'.readBlock n = d.readBlock n := by
  rw [readBlock, readBlock, h.checkRead_eq hn, h.image]

theorem checkWrite_eq (h : Kin sb d d') {n : Nat} (hn : d.Holds n)
    (hbounds : sb.bitmapStart ≤ n ∧ n < sb.dataStart + sb.slots) (b : Block) :
    d'.checkWrite n b.bytes = d.checkWrite n b.bytes := by
  have hplan := h.failsWrite d.attempted d.log.size n
  rcases h.limit with hlimit | hsize
  · simp only [checkWrite, h.size_eq, hlimit, h.attempted, h.log, hplan _ hbounds.1 hbounds.2]
  · have hdata : b.bytes.size = 1 * blockSize := b.size_eq.trans (Nat.one_mul _).symm
    rw [hn.checkWrite_eq (fun _ => hsize) hdata,
      (h.covers hn).checkWrite_eq (fun _ => h.size_eq ▸ hsize) hdata, h.attempted, h.log,
      hplan _ hbounds.1 hbounds.2]

theorem tick (h : Kin sb d d') : Kin sb d.tick d'.tick :=
  ⟨h.image, h.limit, congrArg (· + 1) h.attempted, h.log, h.failsRead, h.failsWrite⟩

theorem wrote (h : Kin sb d d') {n : Nat} (hn : d.Holds n) (b : Block) :
    Kin sb (d.wrote n b) (d'.wrote n b) where
  image := congrArg (·.write n b.bytes) h.image
  limit := h.limit.imp_right fun hsize => hn.size_wrote b ▸ hsize
  attempted := congrArg (· + 1) h.attempted
  log := congrArg (·.push ⟨n, b.bytes⟩) h.log
  failsRead := h.failsRead
  failsWrite := h.failsWrite

/-- As long as it is the volume that is read and written, such devices are in step. -/
theorem parallel (sb : Superblock) : Parallel sb (Kin sb) fun _ => False where
  image := image
  tick := tick
  read h _ hn := h.readBlock_eq hn
  write := by
    intro d d' h n hn hbounds b
    have hcheck := h.checkWrite_eq hn hbounds b
    simp only [writeBlock, write, hcheck]
    cases d.checkWrite n b.bytes with
    | ok => exact .inl ⟨rfl, rfl, h.wrote hn b⟩
    | error e => exact .inr (.inl ⟨_, rfl, rfl⟩)
  stays_tick := False.elim
  stays_write h := h.elim

end Device.Kin

namespace Superblock.Confines

variable {sb : Superblock} {d u t : Device}

theorem refl (sb : Superblock) (d : Device) : sb.Confines d d :=
  ⟨rfl, ⟨[], (List.append_nil _).symm, fun w hw => by cases hw⟩, rfl, fun _ _ => rfl⟩

end Superblock.Confines

namespace Volume

variable {sb : Superblock} {D : Device → Device → Prop} {v v' u : Volume}

/-- Edits are confined to the volume. -/
theorem Edited.confines (hu : Edited sb v u) (h : v.Seated sb) : sb.Confines v.device u.device := by
  have hmargin := hu.sameMargin h
  have hblock {n : Nat} (hn : n < sb.bitmapStart ∨ sb.dataStart + sb.slots ≤ n) :
      u.device.image.block n = v.device.image.block n := by
    refine hmargin.block n fun r hr hheld => ?_
    have := Superblock.bounds_of_holds h.fits hr hheld
    omega
  refine ⟨hmargin.size, ?_, hblock (.inl h.fits.one_le_bitmapStart), fun n hn => ?_⟩
  · obtain ⟨writes, hlog, hheld⟩ := hu.log
    refine ⟨writes, hlog, fun w hw => ?_⟩
    obtain ⟨hcount, r, hr, hn⟩ := hheld w hw
    exact ⟨hcount, Superblock.bounds_of_holds h.fits hr hn⟩
  · rw [Image.byte, Image.byte, hblock]
    exact hn.imp (Nat.div_lt_iff_lt_mul (by decide)).2 (Nat.le_div_iff_mul_le (by decide)).2

/-- Kin are attached alike. -/
theorem attach_kin {d d' : Device} (h : d.Kin sb d')
    (hstored : Superblock.decode (d.image.block 0).bytes = .ok sb) (hfits : sb.Fits d.size) :
    (∃ v v', attach d = .ok v ∧ attach d' = .ok v' ∧ v.device = d ∧ Twin sb (Device.Kin sb) v v') ∨
      ∃ e, attach d = .error e ∧ attach d' = .error e := by
  have hread : Superblock.read d' = Superblock.read d := by
    simp only [Superblock.read, h.readBlock_eq hfits.holds_zero, h.size_eq]
  have hbitmap : Allocator.read d' sb.bitmapOffset.toNat sb.slots =
      Allocator.read d sb.bitmapOffset.toNat sb.slots := by
    have hcovers : d.Covers (sb.bitmapOffset.toNat / blockSize)
        (Allocator.bitmapSize sb.slots / blockSize) := hfits.covers_bitmap
    rw [Allocator.read, Allocator.read, h.read_eq hcovers]
  simp only [attach, hread, bind, Except.bind]
  cases hsb : Superblock.read d with
  | error e => exact .inr ⟨e, rfl, rfl⟩
  | ok sb' =>
    obtain rfl : sb' = sb := Except.ok.inj ((Superblock.of_read hsb).1.symm.trans hstored)
    simp only [hbitmap]
    cases ha : Allocator.read d sb'.bitmapOffset.toNat sb'.slots with
    | error e => exact .inr ⟨e, rfl, rfl⟩
    | ok a =>
      have hattach : attach d = .ok ⟨d, sb', a⟩ := by
        simp only [attach, hsb, ha, bind, Except.bind, pure, Except.pure]
      have hseated := (shows_of_attach hattach hstored hfits).2.seated
      exact .inl ⟨_, _, rfl, rfl, rfl, hseated, rfl, rfl, h⟩

/-- Every update follows itself on devices in step. -/
theorem follows_update (hpar : Device.Parallel sb D fun _ => False) (ht : Twin sb D v v') (o : Update) :
    Follows sb D (fun _ => False) o.run v v' fun _ => True := by
  cases o with
  | create key now => exact (follows_create hpar ht key now).map
  | put key data created stored => exact (follows_put hpar ht key data created stored).map
  | remove key => exact (follows_remove hpar ht key).map
  | rename old new => exact (follows_rename hpar ht old new).map
  | check order repair => exact (follows_checkVisiting hpar ht order.perm repair).map

end Volume

namespace Update

variable {sb : Superblock} {D : Device → Device → Prop} {v v' : Volume}

/-- Any number of updates return the same on devices in step, and leave them in step. -/
theorem runAll_twin (hpar : Device.Parallel sb D fun _ => False) (ht : v.Twin sb D v')
    (updates : List Update) :
    (runAll updates v').1 = (runAll updates v).1 ∧ v.Edited sb (runAll updates v).2 ∧
      (runAll updates v).2.Twin sb D (runAll updates v').2 := by
  induction updates generalizing v v' with
  | nil => exact ⟨rfl, .refl, ht⟩
  | cons o rest ih =>
    cases Volume.follows_update hpar ht o with
    | ok hrun hrun' _ hu ht =>
      obtain ⟨hresults, hrest, htwin⟩ := ih ht
      simp only [runAll, hrun, hrun', hresults]
      exact ⟨trivial, hu.trans hrest, htwin⟩
    | error hrun hrun' hu ht =>
      obtain ⟨hresults, hrest, htwin⟩ := ih ht
      simp only [runAll, hrun, hrun', hresults]
      exact ⟨trivial, hu.trans hrest, htwin⟩
    | apart _ _ hX => exact hX.elim

/-- A session on a device, and on one of its kin. -/
theorem session_kin {d d' : Device} (h : d.Kin sb d')
    (hstored : Superblock.decode (d.image.block 0).bytes = .ok sb) (hfits : sb.Fits d.size)
    (order : VisitOrder) (repair : Bool) (updates : List Update) :
    (session order repair updates d').1 = (session order repair updates d).1 ∧
      sb.Confines d (session order repair updates d).2 ∧
      (session order repair updates d).2.Kin sb (session order repair updates d').2 := by
  rcases Volume.attach_kin h hstored hfits with ⟨v, v', hattach, hattach', rfl, ht⟩ | ⟨e, herror, herror'⟩
  · have hall {u u' : Volume} (hu : v.Edited sb u) (ht : u.Twin sb (Device.Kin sb) u') :
        (runAll updates u').1 = (runAll updates u).1 ∧
          sb.Confines v.device (runAll updates u).2.device ∧
          (runAll updates u).2.device.Kin sb (runAll updates u').2.device := by
      obtain ⟨hresults, hrest, htwin⟩ := runAll_twin (Device.Kin.parallel sb) ht updates
      exact ⟨hresults, (hu.trans hrest).confines ‹v.Twin sb _ v'›.seated, htwin.device⟩
    cases repair with
    | false =>
      obtain ⟨hresults, hconfines, hkin⟩ := hall .refl ht
      simp only [session, Volume.mountVisiting, hattach, hattach', Bool.false_eq_true, if_false, hresults]
      exact ⟨trivial, hconfines, hkin⟩
    | true =>
      cases Volume.follows_checkVisiting (Device.Kin.parallel sb) ht order.perm true with
      | ok hrun hrun' _ hu ht' =>
        obtain ⟨hresults, hconfines, hkin⟩ := hall hu ht'
        simp only [session, Volume.mountVisiting, hattach, hattach', hrun, hrun', if_true, hresults]
        exact ⟨trivial, hconfines, hkin⟩
      | error hrun hrun' hu ht' =>
        simp only [session, Volume.mountVisiting, hattach, hattach', hrun, hrun', if_true]
        exact ⟨trivial, hu.confines ht.seated, ht'.device⟩
      | apart _ _ hX => exact hX.elim
  · simp only [session, Volume.mountVisiting, herror, herror']
    exact ⟨trivial, .refl sb d, h⟩

/-- **Writes stay inside the volume.** Whatever a device holds behind a superblock that passes its check,
and whatever transfers fail, a session on it writes single blocks between the first of the bitmap and the
last data block. So it makes no difference whether the device would grow, or fail, elsewhere: the same is
returned, and the same bytes are left. -/
theorem session_confined {d : Device}
    (hstored : Superblock.decode (d.image.block 0).bytes = .ok sb) (hvalid : sb.validate d.size = .ok ())
    (order : VisitOrder) (repair : Bool) (updates : List Update) :
    sb.Confines d (session order repair updates d).2 ∧
      ∀ d', d.Kin sb d' →
        (session order repair updates d').1 = (session order repair updates d).1 ∧
          (session order repair updates d').2.image = (session order repair updates d).2.image := by
  have hfits := Superblock.validate_eq_ok_iff.1 hvalid
  refine ⟨(session_kin (.refl sb d) hstored hfits order repair updates).2.1, fun d' h => ?_⟩
  obtain ⟨hresults, -, hkin⟩ := session_kin h hstored hfits order repair updates
  exact ⟨hresults, hkin.image⟩

/-- There is only a superblock, for two slots. Mounting repairs the volume with four writes, and with seven
more a value is stored. Then its key is deleted, which fails at the third write. This is done on a device of
fixed size and on a file that could become longer. -/
theorem session_confined_bare :
    ∃ d d' : Device, d = { Volume.bareDevice ⟨2, true, by decide, by decide⟩ with
        faults := ⟨fun _ _ _ _ => false, fun _ acknowledged _ _ => acknowledged == 13⟩ } ∧
      d' = { d with limit := some (1 <<< 44) } ∧ ∃ order : VisitOrder, order.visit = List.reverse ∧
        ∃ updates : List Update, updates = [.put .zero (zeros 5) ⟨0⟩ ⟨0⟩, .check order true, .remove .zero] ∧
          Superblock.Confines (Layout.superblock ⟨2, true, by decide, by decide⟩) d
            (session order true updates d).2 ∧
          (session order true updates d').1 = (session order true updates d).1 ∧
          (session order true updates d').2.image = (session order true updates d).2.image := by
  obtain ⟨hstored, hfits⟩ :=
    Superblock.of_read (Volume.read_bareDevice ⟨2, true, by decide, by decide⟩)
  have hsize : (Volume.bareDevice ⟨2, true, by decide, by decide⟩).size < 1 <<< 63 := by
    rw [Volume.size_bareDevice]
    decide
  generalize Volume.bareDevice ⟨2, true, by decide, by decide⟩ = d at hstored hfits hsize
  refine ⟨_, _, rfl, rfl, ⟨List.reverse, List.reverse_perm⟩, rfl, _, rfl, ?_⟩
  obtain ⟨hconfines, hkin⟩ := session_confined
    (d := { d with faults := ⟨fun _ _ _ _ => false, fun _ acknowledged _ _ => acknowledged == 13⟩ }) hstored
    (Superblock.validate_eq_ok_iff.2 hfits) ⟨List.reverse, List.reverse_perm⟩ true _
  exact ⟨hconfines, hkin _ ⟨rfl, .inr hsize, rfl, rfl, rfl, fun _ _ _ _ _ _ => rfl⟩⟩

end Update

end BlockStore
