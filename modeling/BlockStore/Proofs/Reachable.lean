import BlockStore.Proofs.Attach
import BlockStore.Proofs.Format
import BlockStore.Proofs.Operations
import BlockStore.Proofs.Residue

/-!
# The states of a volume

A volume is formatted and then used: operations run on it, single transfers fail in any of them, and at
any write the power may go, after which the device is mounted again, repaired or not. In every state
that this leads to the volume is sound. What has been left behind is no more than slots that nobody uses
and reference counts that are too high.

Since the operations keep the volume sound at each of their writes, an operation that fails midway and
one that is cut short by a crash leave nothing worse than one that runs to its end.

## Main definitions

* `Operation`: what is done to a mounted volume; `Operation.run` does it.
* `Operation.Leaves`: the maps that an operation can leave, however far it gets.
* `Volume.Reachable`: the states that come about.
* `Volume.Undamaged`: the invariant in terms of bits, entries and blocks.

## Main results

* `Volume.runs_operation`: every write of an operation leaves a sound view.
* `Volume.sound_cut`: so what a crash leaves is sound.
* `Volume.Reachable.intact`: every state that comes about is sound.
* `Volume.undamaged_of_reachable`: what a volume can look like, and what a check can report of it.
-/

namespace BlockStore

/-- An order in which a check may compare the reference counts. -/
structure VisitOrder where
  /-- The blocks in that order. -/
  visit : List SharedBlock → List SharedBlock
  /-- No block is left out and none is visited twice. -/
  perm : ∀ l, (visit l).Perm l

/-- What is done to a mounted volume. -/
inductive Operation where
  | create (key : Key) (now : Timestamp)
  | put (key : Key) (data : ByteArray) (created stored : Timestamp)
  | remove (key : Key)
  | rename (old new : Key)
  | check (order : VisitOrder) (repair : Bool)
  /-- Whatever only reads. -/
  | query (f : Volume → Except StoreError Unit)

namespace Operation

/-- Does it. -/
def run : Operation → VolumeM Unit
  | create key now => do
    let _ ← Volume.create key now
  | put key data created stored => do
    let _ ← Volume.put key data created stored
  | remove key => Volume.remove key
  | rename old new => Volume.rename old new
  | check order repair => do
    let _ ← Volume.checkVisiting order.visit repair
  | query f => Volume.look f

/-- The volume afterwards, whether the operation has succeeded or not. -/
def after (o : Operation) (v : Volume) : Volume :=
  match o.run v with
  | .ok _ u => u
  | .error _ u => u

/-- Every block that is to be stored satisfies `P`. -/
def Stores (P : Block → Prop) : Operation → Prop
  | put _ data _ _ => data.size ≤ blockSize → P (.ofBytes data)
  | _ => True

/-- The map that the operation leaves of `M` may be `M'`. A block may stand for another one if they are
`alike`. -/
def Leaves (alike : Block → Block → Prop) (M : KeyMap) : Operation → (M' : KeyMap) → Prop
  | create key _, M' => M.Creating key M'
  | put key data _ _, M' =>
    if data.size ≤ blockSize then M.Storing key (alike (.ofBytes data)) M' else M' = M
  | remove key, M' => M.Erasing key M'
  | rename old new, M' => M.Moving old new M'
  | check _ _, M' => M' = M
  | query _, M' => M' = M

/-- The keys that an operation names. -/
def names : Operation → List Key
  | create key _ => [key]
  | put key _ _ _ => [key]
  | remove key => [key]
  | rename old new => [old, new]
  | check _ _ => []
  | query _ => []

variable {alike : Block → Block → Prop} {M M' : KeyMap} {o : Operation}

/-- A key that is not named keeps its value, or stays absent. -/
theorem Leaves.of_not_mem {key : Key} (h : o.Leaves alike M M') (hkey : key ∉ o.names) :
    M' key = M key := by
  cases o with
  | create k now =>
    have hne : key ≠ k := fun hk => hkey (hk ▸ List.mem_singleton_self k)
    rcases h with rfl | ⟨-, rfl⟩
    · rfl
    · exact KeyMap.insert_of_ne _ _ _ _ hne
  | put k data created stored =>
    have hne : key ≠ k := fun hk => hkey (hk ▸ List.mem_singleton_self k)
    rw [Leaves] at h
    split at h
    · rcases h with (rfl | ⟨-, rfl⟩) | ⟨b, -, rfl⟩
      · rfl
      · exact KeyMap.insert_of_ne _ _ _ _ hne
      · exact KeyMap.insert_of_ne _ _ _ _ hne
    · rw [h]
  | remove k =>
    have hne : key ≠ k := fun hk => hkey (hk ▸ List.mem_singleton_self k)
    rcases h with rfl | rfl
    · rfl
    · exact KeyMap.erase_of_ne _ _ _ hne
  | rename old new =>
    have hold : key ≠ old := fun hk => hkey (hk ▸ List.mem_cons_self)
    have hnew : key ≠ new := fun hk => hkey (hk ▸ List.mem_cons_of_mem _ List.mem_cons_self)
    rcases h with rfl | ⟨-, -, rfl⟩
    · rfl
    · exact KeyMap.move_of_ne _ _ hold hnew
  | check order repair => exact congrFun h key
  | query f => exact congrFun h key

theorem stores_true (o : Operation) : o.Stores fun _ => True := by
  cases o with
  | put key data created stored => exact fun _ => trivial
  | _ => trivial

theorem leaves_self (o : Operation) (alike : Block → Block → Prop) (M : KeyMap) :
    o.Leaves alike M M := by
  cases o with
  | create key now => exact .inl rfl
  | put key data created stored =>
    rw [Leaves]
    split
    · exact .inl (.inl rfl)
    · rfl
  | remove key => exact .inl rfl
  | rename old new => exact .inl rfl
  | check order repair => rfl
  | query f => rfl

end Operation

namespace Volume

variable {sb : Superblock} {r : Prop} {v u : Volume} {w : View} {free : List Nat} {P : Block → Prop}
  {σ : Nat → Nat}

/-- Every write of an operation leaves a sound view, with a map that the operation can leave. -/
theorem runs_operation (h : v.Shows sb r w free) (hw : w.Sound sb P σ) (o : Operation)
    (ho : o.Stores P) :
    Runs sb r (View.Keeps sb P fun _ M => o.Leaves (sb.Alike P) (w.contents sb) M) o.run v
      (fun _ _ => True) (fun _ _ => True) := by
  cases o with
  | create key now =>
    exact ((runs_create h hw key now).bind fun _ _ _ => .pure trivial).mono (fun _ _ hq => hq)
      fun _ _ _ => trivial
  | put key data created stored =>
    by_cases hsize : data.size ≤ blockSize
    · simp only [Operation.Leaves, if_pos hsize]
      exact ((runs_put h hw key data ho created stored).bind fun _ _ _ => .pure trivial).mono
        (fun _ _ hq => hq) fun _ _ _ => trivial
    · rw [Operation.run, put_eq, if_pos (Nat.lt_of_not_le hsize)]
      exact .bind (Q := fun _ _ => False) (.throw trivial) fun _ _ hq => hq.elim
  | remove key => exact (runs_remove h hw key).mono (fun _ _ _ => trivial) fun _ _ _ => trivial
  | rename old new => exact (runs_rename h hw old new).mono (fun _ _ _ => trivial) fun _ _ _ => trivial
  | check order repair =>
    have hwithin : w.Within sb := h.view ▸ View.within_view sb v.device.image
    have hplan : w.Along (View.Keeps sb P fun _ M => M = w.contents sb)
        (if repair then w.repairs sb order.visit else []) := by
      cases repair
      · trivial
      · exact hw.along_repairs h.fits hwithin order.perm
    exact ((performs_check order.perm repair _ v free h hplan).bind fun _ _ _ => .pure trivial).mono
      (fun _ _ hq => hq) fun _ _ _ => trivial
  | query f => exact .look (fun _ _ => trivial) fun _ _ => trivial

/-- What an operation leads to comes by writes that each leave such a view. -/
theorem trail_operation (h : v.Shows sb r w free) (hw : w.Sound sb P σ) (o : Operation)
    (ho : o.Stores P) :
    Trail (Passes sb r (View.Keeps sb P fun _ M => o.Leaves (sb.Alike P) (w.contents sb) M)) v
      (o.after v) := by
  rw [Operation.after]
  rcases (runs_operation h hw o ho).result with ⟨a, u, hrun, htrail, -⟩ | ⟨e, u, hrun, htrail, -⟩ <;>
    · rw [hrun]
      exact htrail

/-- What an operation leads to on an empty volume is sound. -/
theorem passes_after_blank (h : v.Shows sb r .blank free) (o : Operation) :
    Passes sb r (fun w => ∃ τ, w.Sound sb (fun _ => True) τ) (o.after v) := by
  have hw := View.sound_blank sb (fun _ => True) fun _ => 0
  refine ((trail_operation h hw o o.stores_true).passes (h.passes ⟨_, hw, o.leaves_self _ _⟩)).mono ?_
  rintro w ⟨τ, hw, -⟩
  exact ⟨τ, hw⟩

/-! ### The states that come about -/

/-- The volume on a device that fails in another way from now on. -/
def withFaults (v : Volume) (plan : FaultPlan) : Volume :=
  { v with device := { v.device with faults := plan } }

/-- The states that a volume of this layout can come to be in, if every block that is stored in it
satisfies `P`. -/
inductive Reachable (l : Layout) (P : Block → Prop) : Volume → Prop where
  /-- It has been formatted. -/
  | format {d d' : Device} {v : Volume} (h : format l d = .ok v d') : Reachable l P v
  /-- Other transfers fail from now on. -/
  | faults {v : Volume} (h : Reachable l P v) (plan : FaultPlan) : Reachable l P (v.withFaults plan)
  /-- An operation has run, and has succeeded or failed. -/
  | run {v : Volume} (h : Reachable l P v) (o : Operation) (ho : o.Stores P) :
      Reachable l P (o.after v)
  /-- The power has gone after some writes of an operation, and a device with what had been written has
  been mounted, with or without repair. -/
  | crash {v u : Volume} {d d' : Device} (h : Reachable l P v) (o : Operation) (ho : o.Stores P)
      (k : Nat) (himage : d.image = v.cut (o.after v) k) (order : VisitOrder) (repair : Bool)
      (hu : mountVisiting order.visit repair d = .ok u d') : Reachable l P u

/-- The volume is mounted, and what it shows is sound. -/
def Intact (sb : Superblock) (P : Block → Prop) (v : Volume) : Prop :=
  ∃ w free σ, v.Shows sb v.device.Reliable w free ∧ w.Sound sb P σ

theorem Passes.intact {A : (Nat → KeyEntry) → KeyMap → Prop} (h : Passes sb r (View.Keeps sb P A) v) :
    v.Intact sb P := by
  obtain ⟨w, free, hv, σ, hw, -⟩ := h
  exact ⟨w, free, σ, ⟨hv.mounted, hv.superblock, Iff.rfl, hv.view, hv.free⟩, hw⟩

/-- What a volume shows does not depend on the transfers that will fail. -/
theorem Shows.withFaults (h : v.Shows sb r w free) (plan : FaultPlan) :
    (v.withFaults plan).Shows sb (v.withFaults plan).device.Reliable w free := by
  have hm := h.mounted
  exact ⟨⟨hm.fits, hm.stored, hm.start, hm.slots, hm.bitmap, hm.nodup, hm.mem_free⟩, h.superblock,
    Iff.rfl, h.view, h.free⟩

theorem Intact.withFaults (h : v.Intact sb P) (plan : FaultPlan) : (v.withFaults plan).Intact sb P := by
  obtain ⟨w, free, σ, hv, hw⟩ := h
  exact ⟨w, free, σ, hv.withFaults plan, hw⟩

theorem Intact.run (h : v.Intact sb P) (o : Operation) (ho : o.Stores P) : (o.after v).Intact sb P := by
  obtain ⟨w, free, σ, hv, hw⟩ := h
  have hstart : Passes sb v.device.Reliable
      (View.Keeps sb P fun _ M => o.Leaves (sb.Alike P) (w.contents sb) M) v :=
    hv.passes ⟨σ, hw, o.leaves_self _ _⟩
  exact ((trail_operation hv hw o ho).passes hstart).intact

/-- What a crash in an operation leaves on a device fits it and is sound, with a map that the operation
can leave. -/
theorem sound_cut (hv : v.Shows sb r w free) (hw : w.Sound sb P σ) {o : Operation} (ho : o.Stores P)
    {k : Nat} {d : Device} (himage : d.image = v.cut (o.after v) k) :
    Superblock.decode (d.image.block 0).bytes = .ok sb ∧ sb.Fits d.size ∧
      ∃ τ, (sb.view d.image).Sound sb P τ ∧
        o.Leaves (sb.Alike P) (w.contents sb) ((sb.view d.image).contents sb) := by
  have hstart : Passes sb r (View.Keeps sb P fun _ M => o.Leaves (sb.Alike P) (w.contents sb) M) v :=
    hv.passes ⟨σ, hw, o.leaves_self _ _⟩
  obtain ⟨t, ⟨w', free', ht, τ, hw', hleaves⟩, hcut⟩ :=
    (trail_operation hv hw o ho).exists_cut hstart k
  obtain ⟨hstored, hfits⟩ := ht.mounted.stored_on (himage.trans hcut.symm)
  rw [ht.superblock] at hstored hfits
  rw [himage, ← hcut, ht.view] at *
  exact ⟨hstored, hfits, τ, hw', hleaves⟩

theorem Intact.cut (h : v.Intact sb P) {o : Operation} (ho : o.Stores P) {k : Nat} {d : Device}
    (himage : d.image = v.cut (o.after v) k) (hu : attach d = .ok u) : u.Intact sb P := by
  obtain ⟨w, free, σ, hv, hw⟩ := h
  obtain ⟨hstored, hfits, τ, hsound, -⟩ := sound_cut hv hw ho himage
  obtain ⟨rfl, hshows⟩ := shows_of_attach hu hstored hfits
  exact ⟨_, _, τ, hshows, hsound⟩

/-- Mounting attaches a device, and may repair what it has attached. -/
theorem mountVisiting_cases {order : VisitOrder} {repair : Bool} {d d' : Device}
    (h : mountVisiting order.visit repair d = .ok u d') :
    ∃ v, attach d = .ok v ∧ (u = v ∨ u = (Operation.check order true).after v) := by
  obtain ⟨v, hattach, hrun⟩ := attached_of_mountVisiting h
  refine ⟨v, hattach, ?_⟩
  cases repair with
  | false => exact .inl hrun
  | true =>
    obtain ⟨report, hrun⟩ := hrun
    refine .inr ?_
    simp [Operation.after, Operation.run, bind, EStateM.bind, hrun, Pure.pure, EStateM.pure]

theorem Intact.of_format {l : Layout} {d d' : Device} (h : format l d = .ok v d') :
    v.Intact l.superblock P := by
  have hv := shows_of_format h
  exact ⟨.blank, _, fun _ => 0, ⟨hv.mounted, hv.superblock, Iff.rfl, hv.view, hv.free⟩,
    View.sound_blank _ _ _⟩

/-- Every state that comes about is sound. -/
theorem Reachable.intact {l : Layout} (h : Reachable l P v) : v.Intact l.superblock P := by
  induction h with
  | format h => exact .of_format h
  | faults _ plan ih => exact ih.withFaults plan
  | run _ o ho ih => exact ih.run o ho
  | crash _ o ho k himage order repair hu ih =>
    obtain ⟨t, hattach, rfl | rfl⟩ := mountVisiting_cases hu
    · exact ih.cut ho himage hattach
    · exact (ih.cut ho himage hattach).run (.check order true) trivial

/-! ### What they look like -/

/-- What the device of a volume holds. -/
def view (v : Volume) : View := v.superblock.view v.device.image

theorem Shows.view_eq (h : v.Shows sb r w free) : v.view = w := by
  rw [Volume.view, h.superblock, h.view]

/-- The bit of the slot is set, on the device and in memory, and the slot is not free. -/
def InUse (v : Volume) (s : Nat) : Prop :=
  s < v.superblock.slots ∧ testSlot (v.superblock.bitmapOf v.device.image) s ∧
    v.allocator.isUsed s ∧ s ∉ v.allocator.free

/-- Nothing that is referenced is free, and nothing that is free is referenced. -/
structure Undamaged (v : Volume) : Prop where
  /-- A slot with a key is in use. -/
  active : ∀ s, v.view.Active s → v.InUse s
  /-- A shared block is the block of a slot that is in use and has no key. -/
  held : ∀ i, v.view.Held i → ∃ s, (v.view.shared i).block = v.superblock.dataBlock s ∧ v.InUse s ∧
    ¬ v.view.Active s
  /-- The key of a dedup entry is the content key of its block. -/
  content : ∀ i s, v.view.Held i → (v.view.shared i).block = v.superblock.dataBlock s →
    contentHash (v.view.data s).bytes = (v.view.shared i).key
  /-- No key is in two slots. -/
  unique : ∀ s t, v.view.Active s → v.view.Active t → (v.view.keys s).key = (v.view.keys t).key → s = t
  /-- A pointer leads to a shared block, whose reference count is not too low. -/
  backed : v.superblock.isDedup → ∀ s, v.view.Active s → v.view.pointer s ≠ 0 →
    ∃ i, v.view.Held i ∧ (v.view.shared i).block = v.view.pointer s ∧
      v.view.refs v.superblock (v.view.pointer s) ≤ (v.view.shared i).refCount.toNat
  /-- A slot whose bit is clear has no key and a block of zeros. -/
  clear : ∀ s < v.superblock.slots, testSlot (v.superblock.bitmapOf v.device.image) s = false →
    v.view.keys s = .free ∧ v.view.data s = .zero

theorem Shows.inUse_iff (h : v.Shows sb r w free) {s : Nat} :
    v.InUse s ↔ s < sb.slots ∧ w.used s := by
  rw [InUse, h.isUsed_eq, h.free, h.mem_free, h.superblock]
  refine and_congr_right ?_
  intro hs
  rw [h.testSlot_eq hs]
  simp [hs]

theorem Shows.undamaged (h : v.Shows sb r w free) (hw : w.Sound sb P σ) : v.Undamaged := by
  obtain rfl := h.superblock
  obtain rfl := h.view
  refine ⟨?_, ?_, fun i s hi hblock => (hw.owner hi hblock).2.2.1,
    fun s t => hw.unique, ?_, ?_⟩
  · intro s hs
    exact h.inUse_iff.2 ⟨hw.active_lt hs, hw.used_of_active hs⟩
  · intro i hi
    obtain ⟨s, hs, hblock, hused, hidle, -⟩ := hw.home hi
    exact ⟨s, hblock, h.inUse_iff.2 ⟨hs, hused⟩, hidle⟩
  · intro hd s hs hp
    obtain ⟨i, hi, hblock⟩ := hw.backed hd hs hp
    refine ⟨i, hi, hblock, ?_⟩
    have hcount := (hw.counted hi).2
    rw [hblock] at hcount
    exact Nat.le.intro hcount
  · intro s hs hclear
    have hidle : ¬ v.view.Active s := fun hactive => by
      have hbit := (h.inUse_iff.2 ⟨hs, hw.used_of_active hactive⟩).2.1
      rw [hclear] at hbit
      cases hbit
    refine ⟨hw.vacant hidle, hw.blank ?_⟩
    simp [Superblock.view, hclear]

/-- **What is left behind is only ever unused.** In every state that comes about, a volume is undamaged,
and all that a check can report of it is harmless. -/
theorem undamaged_of_reachable {l : Layout} (h : Reachable l P v) :
    v.Undamaged ∧ ∀ order : VisitOrder,
      (∀ report u, checkVisiting order.visit false v = .ok report u → report.Harmless) ∧
      (v.device.Reliable → ∃ report u, checkVisiting order.visit false v = .ok report u) := by
  obtain ⟨w, free, σ, hv, hw⟩ := h.intact
  refine ⟨hv.undamaged hw, fun order => ?_⟩
  have hplan : w.Along (fun _ => True) [] := trivial
  rcases (performs_check order.perm false _ v free hv hplan).result with
    ⟨report, u, hrun, -, rfl, -⟩ | ⟨e, u, hrun, -, hr⟩
  · refine ⟨fun report' u' h' => ?_, fun _ => ⟨_, u, hrun⟩⟩
    rw [hrun] at h'
    cases h'
    exact hw.residue hv.fits order.perm false
  · refine ⟨fun report' u' h' => ?_, fun hr' => absurd hr' hr⟩
    rw [hrun] at h'
    cases h'

/-- A value is to be stored on a deduplicating volume with two slots, but after five writes the device takes no
more of them. The entry of the value is there then, with a pointer counted that was never written. -/
theorem undamaged_two_slots :
    ∃ v d', format ⟨2, true, by decide, by decide⟩ (.ofImage (.blank (Layout.totalSize 2 true))) = .ok v d' ∧
      ∃ u, u = (Operation.put .zero (zeros 5) ⟨0⟩ ⟨0⟩).after
          (v.withFaults ⟨fun _ _ _ _ => false, fun _ acknowledged _ _ => acknowledged == 11⟩) ∧
        u.Undamaged ∧ ∀ report t, checkVisiting id false u = .ok report t → report.Harmless := by
  rcases format_cases ⟨2, true, by decide, by decide⟩ (.ofImage (.blank (Layout.totalSize 2 true))) with
    ⟨v, hv, -⟩ | ⟨-, hfail⟩
  · have hreach : Reachable ⟨2, true, by decide, by decide⟩ (fun _ => True) v := .format hv
    obtain ⟨hdamage, hcheck⟩ := undamaged_of_reachable
      ((hreach.faults ⟨fun _ _ _ _ => false, fun _ acknowledged _ _ => acknowledged == 11⟩).run
        (.put .zero (zeros 5) ⟨0⟩ ⟨0⟩) fun _ => trivial)
    exact ⟨v, _, hv, _, rfl, hdamage, (hcheck ⟨id, fun _ => .refl _⟩).1⟩
  · exact absurd ⟨Device.reliable_ofImage _, Nat.le_refl _⟩ hfail

end Volume

end BlockStore
