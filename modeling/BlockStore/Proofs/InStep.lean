import BlockStore.Proofs.Lockstep
import BlockStore.Proofs.Reachable

/-!
# The operations in step

Every operation follows itself on two devices that hold the same, whatever they hold. The numbers that
an operation takes off the device are all tested before a write depends on them: a slot that a key is
found in is one of the table, a block that is given back is the data block of a slot, and a dedup entry
that is replaced is one that the scan has seen.

Storing a value is treated more generally than the rest, with a first device that may fail a write on
its own.

## Main results

* `Volume.follows_store`: storing a value, up to a write that fails on the first device alone.
* `Volume.follows_create`, `follows_put`, `follows_remove`, `follows_rename`, `follows_checkVisiting`: the
  operations.
* `Volume.Seated.edited_after`: whatever is done, the volume is edited.
-/

namespace BlockStore

namespace Volume

variable {sb : Superblock} {D : Device → Device → Prop} {X : Device → Prop} {v v' u u' : Volume}

section Store

variable (hpar : Device.Parallel sb D X) (ht : Twin sb D v v')

include hpar ht

/-! ### Giving back -/

theorem follows_reclaim {s : Nat} (hs : s < sb.slots) :
    Follows sb D X (reclaim s) v v' fun _ => True :=
  (follows_writeData hpar ht hs .zero).bind fun _ _ _ _ ht => follows_release hpar ht hs

theorem follows_discardSlot {s : Nat} (hs : s < sb.slots) :
    Follows sb D X (discardSlot s) v v' fun _ => True := by
  refine .get_bind (by simp only [ht.keyTable_eq]) ?_
  rw [ht.seated.keyTable_eq]
  exact (follows_writeKey hpar ht hs .free).bind fun _ _ _ _ ht => follows_reclaim hpar ht hs

theorem follows_unref (b : Nat) :
    Follows sb D X (onDevice (DedupTable.unref ⟨sb.dedupStart, sb.dedupBlocks⟩ b)) v v'
      fun _ => True := by
  rw [DedupTable.unref, onDevice_bind, onDevice_look]
  refine (Follows.look hpar ht (ht.locate_eq hpar _) fun l hl => DedupTable.lt_of_locate hl).bind ?_
  rintro l u u' ⟨hfound, -⟩ ht
  cases h : l.found with
  | none => exact .throw ht _
  | some item =>
    obtain ⟨i, e⟩ := item
    simp only [onDevice_bind]
    exact (follows_writeShared hpar ht (hfound i e h) _).map

theorem follows_dropShared (b : Nat) :
    Follows sb D X (dropShared ⟨sb.dedupStart, sb.dedupBlocks⟩ b) v v' fun _ => True := by
  refine (follows_unref hpar ht b).bind fun left u u' _ ht => ?_
  split
  · refine .get_bind (by simp only [ht.superblock]) ?_
    rw [ht.seated.superblock]
    cases h : sb.slotOfBlock b with
    | none => exact .pure ht trivial
    | some s => exact follows_reclaim hpar ht (Superblock.slotOfBlock_eq_some_iff.1 h).1
  · exact .pure ht trivial

/-! ### Storing -/

theorem follows_share (content : Key) (candidate : Nat) :
    Follows sb D X (onDevice (DedupTable.share ⟨sb.dedupStart, sb.dedupBlocks⟩ content candidate)) v v'
      fun _ => True := by
  rw [DedupTable.share, onDevice_bind, onDevice_look]
  refine (Follows.look hpar ht (ht.locate_eq hpar _) fun l hl => DedupTable.lt_of_locate hl).bind ?_
  rintro l u u' ⟨hfound, hfree⟩ ht
  cases h : l.found with
  | some item =>
    obtain ⟨i, e⟩ := item
    dsimp only
    split
    · simp only [onDevice_bind]
      exact (follows_writeShared hpar ht (hfound i e h) _).map
    · exact .throw ht _
  | none =>
    cases hfirst : l.firstFree with
    | none => exact .throw ht _
    | some i =>
      simp only [onDevice_bind]
      exact (follows_writeShared hpar ht (hfree i hfirst) _).map

omit ht in
/-- Giving a slot back after a failure, and failing with it. -/
theorem reclaim_throw (hu : u.Seated sb) {s : Nat} (hs : s < sb.slots) (e : StoreError) (hX : X u.device) :
    ∃ e' t, (do
        reclaim s
        throw e : VolumeM Nat) u = .error e' t ∧ Edited sb u t ∧ X t.device := by
  rcases (follows_reclaim (Device.parallel_self sb) hu.twin hs).edited with
    ⟨_, t, hrun, ht⟩ | ⟨e', t, hrun, ht⟩
  · exact ⟨e, t, bind_of_ok hrun, ht, ht.stays hpar hX⟩
  · exact ⟨e', t, bind_of_error hrun, ht, ht.stays hpar hX⟩

theorem follows_dismissCandidate {s : Nat} (hs : s < sb.slots) (candidate p : Nat) :
    Follows sb D X (dismissCandidate s candidate p) v v' fun _ => True := by
  rw [dismissCandidate]
  split
  · exact follows_reclaim hpar ht hs
  · exact .pure ht trivial

theorem follows_redirect {s : Nat} (hs : s < sb.slots) (p : Nat) :
    Follows sb D X (redirect ⟨sb.dedupStart, sb.dedupBlocks⟩ s p) v v' fun _ => True := by
  refine (Follows.look (Q := fun _ => True) hpar ht (ht.readPointer_eq hpar hs) fun _ _ =>
    trivial).bind fun old _ _ _ ht => ?_
  refine (follows_writeData hpar ht hs _).bind fun _ _ _ _ ht => ?_
  split
  · exact follows_dropShared hpar ht old
  · exact .pure ht trivial

theorem follows_storeShared {s : Nat} (hs : s < sb.slots) (b : Block) :
    Follows sb D X (storeShared ⟨sb.dedupStart, sb.dedupBlocks⟩ s b) v v' fun _ => True := by
  rw [storeShared_eq]
  refine (follows_acquire hpar ht).bind fun c u u' hc ht => ?_
  refine .get_bind (by simp only [ht.superblock]) ?_
  rw [ht.seated.superblock]
  refine (follows_writeData hpar ht hc b).bind fun _ x x' _ ht => ?_
  refine (Follows.tryCatch (Q := fun _ => True) (follows_share hpar ht _ _) ht.seated
    (fun e y y' ht => (follows_reclaim hpar ht hc).bind fun _ _ _ _ ht => .throw ht e)
    fun e y hy hX => reclaim_throw hpar hy hc e hX).bind fun p y y' _ ht => ?_
  exact (follows_dismissCandidate hpar ht hc _ p).bind fun _ _ _ _ ht => follows_redirect hpar ht hs p

/-- Storing the value of a slot. -/
theorem follows_store {s : Nat} (hs : s < sb.slots) (b : Block) :
    Follows sb D X (store s b) v v' fun _ => True := by
  refine .get_bind (by simp only [ht.dedupTable_eq]) ?_
  rw [ht.seated.dedupTable_eq]
  cases sb.isDedup with
  | true => exact follows_storeShared hpar ht hs b
  | false => exact follows_writeData hpar ht hs b

end Store

/-! ### The operations -/

section Operations

variable (hpar : Device.Parallel sb D X) (ht : Twin sb D v v')

include hpar ht

theorem follows_allocate {s : Nat} (hs : s < sb.slots) (key : Key) (now : Timestamp) :
    Follows sb D X (onDevice (KeyTable.allocate ⟨sb.keysStart, sb.slots⟩ s key now)) v v'
      fun _ => True := by
  rw [KeyTable.allocate, onDevice_bind, onDevice_look]
  refine (Follows.look (Q := fun _ => True) hpar ht (ht.keyEntry_eq hpar s) fun _ _ => trivial).bind
    fun e u u' _ ht => ?_
  split
  · exact follows_writeKey hpar ht hs _
  · exact .throw ht _

/-- Replacing the entry of an active slot by another one. -/
theorem follows_amend {s : Nat} (hs : s < sb.slots) (f : KeyEntry → KeyEntry) :
    Follows sb D X
      (onDevice (Device.look (KeyTable.activeEntry ⟨sb.keysStart, sb.slots⟩ · s) >>= fun e =>
        KeyTable.writeEntry ⟨sb.keysStart, sb.slots⟩ s (f e))) v v' fun _ => True := by
  rw [onDevice_bind, onDevice_look]
  refine (Follows.look (Q := fun _ => True) hpar ht ?_ fun _ _ => trivial).bind
    fun e u u' _ ht => follows_writeKey hpar ht hs _
  simp only [KeyTable.activeEntry, ht.keyEntry_eq hpar s]

theorem follows_create (key : Key) (now : Timestamp) :
    Follows sb D X (create key now) v v' (· < sb.slots) := by
  refine (Follows.look (Q := fun _ => True) hpar ht (ht.contains_eq hpar key) fun _ _ => trivial).bind
    fun found u u' _ ht => ?_
  split
  · exact .bind (Q := fun _ => False) (.throw ht _) fun _ _ _ h => h.elim
  · refine (follows_acquire hpar ht).bind fun s x x' hs ht => ?_
    refine .get_bind (by simp only [ht.keyTable_eq]) ?_
    rw [ht.seated.keyTable_eq]
    exact (follows_allocate hpar ht hs key now).bind fun _ _ _ _ ht => .pure ht hs

theorem follows_obtain (key : Key) (now : Timestamp) :
    Follows sb D X (obtain key now) v v' (·.1 < sb.slots) := by
  refine (Follows.look (Q := fun a => a = v.lookup key) hpar ht (by simp only [ht.lookup_eq hpar key])
    fun a ha => (Except.ok.inj ha).symm).bind ?_
  rintro _ u u' rfl ht'
  split
  case h_1 s hs => exact .pure ht' (ht.seated.lt_of_lookup hs)
  case h_2 => exact (follows_create hpar ht' key now).bind fun s _ _ hs ht => .pure ht hs
  case h_3 => exact .throw ht' _

theorem follows_remove (key : Key) :
    Follows sb D X (remove key) v v' fun _ => True := by
  refine (Follows.look hpar ht (ht.lookup_eq hpar key) fun s hs => ht.seated.lt_of_lookup hs).bind
    fun s u u' hs ht => ?_
  refine .get_bind (by simp only [ht.dedupTable_eq]) ?_
  rw [ht.seated.dedupTable_eq]
  cases sb.isDedup with
  | false => exact follows_discardSlot hpar ht hs
  | true =>
    refine (Follows.look (Q := fun _ => True) hpar ht (ht.readPointer_eq hpar hs) fun _ _ =>
      trivial).bind fun pointer _ _ _ ht => ?_
    refine (follows_discardSlot hpar ht hs).bind fun _ _ _ _ ht => ?_
    split
    · exact follows_dropShared hpar ht pointer
    · exact .pure ht trivial

theorem follows_rename (old new : Key) :
    Follows sb D X (rename old new) v v' fun _ => True := by
  refine (Follows.look hpar ht (ht.lookup_eq hpar old) fun s hs => ht.seated.lt_of_lookup hs).bind
    fun s u u' hs ht => ?_
  split
  · refine (Follows.look (Q := fun _ => True) hpar ht (ht.contains_eq hpar new) fun _ _ =>
      trivial).bind fun found x x' _ ht => ?_
    split
    · exact .bind (Q := fun _ => False) (.throw ht _) fun _ _ _ h => h.elim
    · refine .get_bind (by simp only [ht.keyTable_eq]) ?_
      rw [ht.seated.keyTable_eq]
      exact follows_amend hpar ht hs _
  · exact .pure ht trivial

/-! ### The check -/

theorem follows_checkPointers (repair : Bool) (blocks : List Nat) {slots : List Nat}
    (hslots : ∀ s ∈ slots, s < sb.slots) :
    Follows sb D X (checkPointers repair blocks slots) v v' fun _ => True := by
  induction slots generalizing v v' with
  | nil => exact .pure ht trivial
  | cons s rest ih =>
    have hs := hslots s List.mem_cons_self
    have hrest {u u' : Volume} (ht : Twin sb D u u') :=
      ih ht fun t htr => hslots t (List.mem_cons_of_mem _ htr)
    refine (Follows.look (Q := fun _ => True) hpar ht (ht.readPointer_eq hpar hs) fun _ _ =>
      trivial).bind fun pointer u u' _ ht => ?_
    split
    · exact hrest ht
    split
    · exact (hrest ht).map
    · dsimp only
      split
      · exact (follows_writeData hpar ht hs _).bind fun _ _ _ _ ht => (hrest ht).map
      · exact (hrest ht).map

theorem follows_checkCounts (repair : Bool) (pointers : List Nat) {blocks : List SharedBlock}
    (hblocks : ∀ b ∈ blocks, b.index < sb.dedupCapacity) :
    Follows sb D X
      (checkCounts repair ⟨sb.dedupStart, sb.dedupBlocks⟩ pointers blocks) v v' fun _ => True := by
  induction blocks generalizing v v' with
  | nil => exact .pure ht trivial
  | cons b rest ih =>
    have hb := hblocks b List.mem_cons_self
    have hrest {u u' : Volume} (ht : Twin sb D u u') :=
      ih ht fun t htr => hblocks t (List.mem_cons_of_mem _ htr)
    simp only [checkCounts]
    split
    · exact hrest ht
    split
    · refine (Follows.look (Q := fun _ => True) hpar ht (ht.sharedEntry_eq hpar hb) fun _ _ =>
        trivial).bind fun e _ _ _ ht => ?_
      exact (follows_writeShared hpar ht hb _).bind fun _ _ _ _ ht => (hrest ht).map
    · exact (hrest ht).map

theorem follows_freeDedupEntries {indices : List Nat} (hi : ∀ i ∈ indices, i < sb.dedupCapacity) :
    Follows sb D X (freeDedupEntries ⟨sb.dedupStart, sb.dedupBlocks⟩ indices) v v'
      fun _ => True := by
  induction indices generalizing v v' with
  | nil => exact .pure ht trivial
  | cons i rest ih =>
    exact (follows_writeShared hpar ht (hi i List.mem_cons_self) .free).bind fun _ _ _ _ ht =>
      ih ht fun j hj => hi j (List.mem_cons_of_mem _ hj)

theorem follows_discardEntries (referenced : List Nat) {slots : List Nat}
    (hslots : ∀ s ∈ slots, s < sb.slots) :
    Follows sb D X (discardEntries referenced slots) v v' fun _ => True := by
  induction slots generalizing v v' with
  | nil => exact .pure ht trivial
  | cons s rest ih =>
    have hs := hslots s List.mem_cons_self
    have hrest {u u' : Volume} (ht : Twin sb D u u') :=
      ih ht fun t htr => hslots t (List.mem_cons_of_mem _ htr)
    refine .get_bind (by simp only [ht.keyTable_eq]) ?_
    rw [ht.seated.keyTable_eq]
    refine (follows_writeKey hpar ht hs .free).bind fun _ u u' _ ht => ?_
    dsimp only
    split
    · exact (follows_writeData hpar ht hs .zero).bind fun _ _ _ _ ht => hrest ht
    · exact hrest ht

theorem follows_checkBitmap (repair : Bool) (referenced : List Nat) {slots : List Nat}
    (hslots : ∀ s ∈ slots, s < sb.slots) :
    Follows sb D X (checkBitmap repair referenced slots) v v' fun _ => True := by
  induction slots generalizing v v' with
  | nil => exact .pure ht trivial
  | cons s rest ih =>
    have hs := hslots s List.mem_cons_self
    have hrest {u u' : Volume} (ht : Twin sb D u u') :=
      ih ht fun t htr => hslots t (List.mem_cons_of_mem _ htr)
    refine .get_bind (by simp only [ht.allocator]) ?_
    cases repair <;> dsimp only <;> split
    · exact (hrest ht).map
    · split
      · exact (hrest ht).map
      · exact hrest ht
    · exact (follows_reclaim hpar ht hs).bind fun _ _ _ _ ht => (hrest ht).map
    · split
      · exact (follows_markUsed hpar ht hs).bind fun _ _ _ _ ht => (hrest ht).map
      · exact hrest ht

theorem follows_checkShared {visit : List SharedBlock → List SharedBlock}
    (hvisit : ∀ l, (visit l).Perm l) (repair : Bool) {logical : List Nat}
    (hlogical : ∀ s ∈ logical, s < sb.slots) :
    Follows sb D X (checkShared visit repair ⟨sb.dedupStart, sb.dedupBlocks⟩ logical) v v'
      fun _ => True := by
  refine (Follows.look (Q := fun l => ∀ i e, (i, e) ∈ l → i < sb.dedupCapacity) hpar ht
    (by rw [ht.sharedEntries_eq hpar]) fun l hl i e hi => ?_).bind fun entries u u' hentries ht => ?_
  · exact DedupTable.lt_of_mem_entries (t := ⟨sb.dedupStart, sb.dedupBlocks⟩) (mem_of_collect hl hi)
  refine .get_bind (by simp only [ht.superblock]) ?_
  rw [ht.seated.superblock]
  obtain ⟨hblocks, hbad⟩ := mem_of_acceptEntries sb logical [] entries
  generalize acceptEntries sb logical [] entries = found at hblocks hbad
  obtain ⟨blocks, bad⟩ := found
  refine (follows_checkPointers hpar ht repair _ hlogical).bind fun a _ _ _ ht => ?_
  obtain ⟨pointers, dangling⟩ := a
  refine (follows_checkCounts hpar ht repair pointers fun b hb => ?_).bind fun fixes _ _ _ ht => ?_
  · rcases hblocks b ((hvisit blocks).mem_iff.1 hb) with hb | ⟨e, he⟩
    · cases hb
    · exact hentries _ e he
  dsimp only
  split
  · refine (follows_freeDedupEntries hpar ht fun i hi => ?_).map
    obtain ⟨e, he⟩ := hbad i hi
    exact hentries _ e he
  · exact .pure ht trivial

theorem follows_checkVisiting {visit : List SharedBlock → List SharedBlock}
    (hvisit : ∀ l, (visit l).Perm l) (repair : Bool) :
    Follows sb D X (checkVisiting visit repair) v v' fun _ => True := by
  refine (Follows.look (Q := fun l => ∀ s e, (s, e) ∈ l → s < sb.slots) hpar ht
    (by rw [ht.entries_eq hpar]) fun l hl s e hs => ?_).bind fun entries u u' hentries ht => ?_
  · rw [ht.seated.keyTable_eq] at hl
    exact KeyTable.lt_of_mem_entries (mem_of_collect hl hs)
  have hslots (p : SlotRole → Bool) : ∀ s ∈ slotsWhere p (classify [] entries), s < sb.slots := by
    intro s hs
    obtain ⟨⟨s, role⟩, hmem, rfl⟩ := List.mem_map.1 hs
    obtain ⟨e, he⟩ := mem_of_classify (List.mem_filter.1 hmem).1
    exact hentries s e he
  refine .get_bind (by simp only [ht.dedupTable_eq]) ?_
  rw [ht.seated.dedupTable_eq]
  -- What comes after the dedup table is the same with one and without.
  have hrest (referenced : List Nat) {f : List Nat × List Nat → VolumeM CheckReport}
      (hf : ∀ a z z', Twin sb D z z' → Follows sb D X (f a) z z' fun _ => True)
      {x x' : Volume} (ht : Twin sb D x x') : Follows sb D X
        (do
          if repair then
            discardEntries referenced (slotsWhere SlotRole.isDiscarded (classify [] entries))
          let a ← checkBitmap repair referenced (List.range (← get).superblock.slots)
          f a) x x' fun _ => True := by
    have hbits {z z' : Volume} (ht : Twin sb D z z') : Follows sb D X
        (do
          let a ← checkBitmap repair referenced (List.range (← get).superblock.slots)
          f a) z z' fun _ => True := by
      refine .get_bind (by simp only [ht.superblock]) ?_
      rw [ht.seated.superblock]
      exact (follows_checkBitmap hpar ht repair referenced fun s hs => List.mem_range.1 hs).bind
        fun a _ _ _ ht => hf a _ _ ht
    dsimp only
    split
    · exact (follows_discardEntries hpar ht referenced (hslots _)).bind fun _ _ _ _ ht => hbits ht
    · exact hbits ht
  cases sb.isDedup with
  | true =>
    exact (follows_checkShared hpar ht hvisit repair (hslots _)).bind fun shared _ _ _ ht =>
      hrest _ (fun a _ _ ht => .pure ht trivial) ht
  | false =>
    exact (Follows.pure (Q := fun _ => True) ht trivial).bind fun shared _ _ _ ht =>
      hrest _ (fun a _ _ ht => .pure ht trivial) ht

end Operations

/-- Storing a value under a key. The handler of a failed write would go on where the devices have parted,
so they must not part. -/
theorem follows_put (hpar : Device.Parallel sb D fun _ => False) (ht : Twin sb D v v') (key : Key)
    (data : ByteArray) (created stored : Timestamp) :
    Follows sb D (fun _ => False) (put key data created stored) v v' fun _ => True := by
  rw [put_eq]
  split
  · exact .throw ht _
  refine (follows_obtain hpar ht key created).bind fun a u u' hs ht => ?_
  refine (Follows.tryCatch (Q := fun _ => True) (follows_store hpar ht hs _) ht.seated
    (fun e x x' ht => ?_) fun _ _ _ hX => hX.elim).bind fun _ x x' _ ht => ?_
  · split
    · refine (Follows.tryCatch (Q := fun _ => True) (follows_discardSlot hpar ht hs) ht.seated
        (fun _ _ _ ht => .pure ht trivial) fun _ _ _ hX => hX.elim).bind fun _ _ _ _ ht => .throw ht e
    · exact .throw ht e
  · refine .get_bind (by simp only [ht.keyTable_eq]) ?_
    rw [ht.seated.keyTable_eq]
    exact (follows_amend hpar ht hs _).map

/-- Whatever is done to a mounted volume, and whatever it holds, nothing but edits come of it. -/
theorem Seated.edited_after (h : v.Seated sb) (o : Operation) : Edited sb v (o.after v) := by
  have hpar := Device.parallel_self sb
  have hrun : Follows sb (fun d d' => d' = d) (fun _ => False) o.run v v fun _ => True := by
    cases o with
    | create key now => exact (follows_create hpar h.twin key now).map
    | put key data created stored =>
      exact (follows_put hpar h.twin key data created stored).map
    | remove key => exact follows_remove hpar h.twin key
    | rename old new => exact follows_rename hpar h.twin old new
    | check order repair =>
      exact (follows_checkVisiting hpar h.twin order.perm repair).map
    | query f => exact .look hpar h.twin rfl fun _ _ => trivial
  rw [Operation.after]
  rcases hrun.edited with ⟨a, u, hok, hu⟩ | ⟨e, u, herror, hu⟩
  · rw [hok]
    exact hu
  · rw [herror]
    exact hu

end Volume

end BlockStore
