import BlockStore.Proofs.Findings

/-!
# The check as a plan

What a check finds, and what a repair writes, is decided by the view that it starts from: no write of a
repair changes anything that is read after it. So the check is described by two functions of a view, the
report and the list of changes, and running it carries the changes out one by one.

A fault stops a repair after some of its changes, and so does a crash. `View.Along` says of a list of
changes that a property holds after each of them, which is all that has to be known of the plan to know
what such a stop can leave.

## Main definitions

* `Change`, `View.after`, `View.Along`: a change of a view, and what holds along a list of them.
* `View.repairs`: the changes of a repair.
* `Volume.Performs`: an action carries out a plan.

## Main results

* `Volume.performs_check`: a check reports and does what the view says.
-/

namespace BlockStore

/-- A write of a repair, seen as a change of the view. -/
inductive Change where
  /-- The key entry of a slot is freed. -/
  | freeKey (s : Nat)
  /-- A dedup entry is replaced. -/
  | setShared (i : Nat) (e : DedupEntry)
  /-- The data block of a slot is zeroed. -/
  | zeroData (s : Nat)
  /-- The bit of a slot is set or cleared. -/
  | setBit (s : Nat) (used : Bool)

/-- The view after a change. -/
def Change.apply : Change → View → View
  | .freeKey s, w => w.setKey s .free
  | .setShared i e, w => w.setShared i e
  | .zeroData s, w => w.setData s .zero
  | .setBit s used, w => w.setUsed s used

namespace View

/-- The view after a list of changes. -/
def after (w : View) (plan : List Change) : View := plan.foldl (fun w c => c.apply w) w

/-- The property holds after each of the changes. -/
def Along (C : View → Prop) : View → List Change → Prop
  | _, [] => True
  | w, c :: cs => C (c.apply w) ∧ Along C (c.apply w) cs

variable {C : View → Prop} {w : View} {plan plan' : List Change}

@[simp] theorem after_nil (w : View) : w.after [] = w := rfl

theorem after_cons (w : View) (c : Change) (cs : List Change) :
    w.after (c :: cs) = (c.apply w).after cs := rfl

theorem after_append (w : View) (plan plan' : List Change) :
    w.after (plan ++ plan') = (w.after plan).after plan' := List.foldl_append

theorem along_append :
    Along C w (plan ++ plan') ↔ Along C w plan ∧ Along C (w.after plan) plan' := by
  induction plan generalizing w with
  | nil => simp [Along]
  | cons c cs ih => rw [List.cons_append, Along, Along, ih, after_cons, and_assoc]

theorem Along.last (h : Along C w plan) (hw : C w) : C (w.after plan) := by
  induction plan generalizing w with
  | nil => exact hw
  | cons c cs ih => exact ih h.2 h.1

/-- What every one of the changes keeps holds along them. -/
theorem Along.of_step (hw : C w) (h : ∀ c ∈ plan, ∀ w, C w → C (c.apply w)) : Along C w plan := by
  induction plan generalizing w with
  | nil => trivial
  | cons c cs ih =>
    have hc := h c List.mem_cons_self w hw
    exact ⟨hc, ih hc fun c hc => h c (List.mem_cons_of_mem _ hc)⟩

theorem along_true (w : View) (plan : List Change) : w.Along (fun _ => True) plan :=
  .of_step trivial fun _ _ _ _ => trivial

/-- What none of the changes touches stays as it is. -/
theorem after_eq {β : Type} (f : View → β) (h : ∀ c ∈ plan, ∀ w, f (c.apply w) = f w) :
    f (w.after plan) = f w := by
  induction plan generalizing w with
  | nil => rfl
  | cons c cs ih =>
    rw [after_cons, ih fun c hc => h c (List.mem_cons_of_mem _ hc)]
    exact h c List.mem_cons_self w

/-! ### The changes of a repair -/

/-- The changes that correct the counts of the `blocks`. -/
def countChanges (w : View) (pointers : List Nat) (blocks : List SharedBlock) : List Change :=
  (blocks.filter fun b => refsTo pointers b.block ≠ b.recorded).map fun b =>
    .setShared b.index (corrected (w.shared b.index) (refsTo pointers b.block))

/-- The changes that free the entries of slots. -/
def discardChanges (referenced slots : List Nat) : List Change :=
  slots.flatMap fun s => if s ∈ referenced then [.freeKey s] else [.freeKey s, .zeroData s]

/-- The changes that make the bit of a slot agree with what is referenced. -/
def bitChange (w : View) (referenced : List Nat) (s : Nat) : List Change :=
  if w.used s ∧ s ∉ referenced then [.zeroData s, .setBit s false]
  else if ¬ w.used s ∧ s ∈ referenced then [.setBit s true]
  else []

/-- The changes that make the dedup table agree with the pointers of the logical slots. -/
def sharedRepairs (w : View) (sb : Superblock) (visit : List SharedBlock → List SharedBlock) :
    List Change :=
  (w.dangling sb).map .zeroData ++ (w.countChanges (w.pointers sb) (visit (w.accepted sb)) ++
    (w.rejected sb).map (.setShared · .free))

theorem mem_sharedRepairs {sb : Superblock} {visit : List SharedBlock → List SharedBlock} {c : Change}
    (hc : c ∈ w.sharedRepairs sb visit) :
    (∃ s ∈ w.dangling sb, c = .zeroData s) ∨ ∃ i e, c = .setShared i e := by
  rw [sharedRepairs, List.mem_append, List.mem_append] at hc
  rcases hc with hc | hc | hc
  · obtain ⟨s, hs, rfl⟩ := List.mem_map.1 hc
    exact .inl ⟨s, hs, rfl⟩
  · obtain ⟨b, -, rfl⟩ := List.mem_map.1 hc
    exact .inr ⟨_, _, rfl⟩
  · obtain ⟨i, -, rfl⟩ := List.mem_map.1 hc
    exact .inr ⟨_, _, rfl⟩

theorem mem_discardChanges {referenced slots : List Nat} {c : Change} :
    c ∈ discardChanges referenced slots ↔
      ∃ s ∈ slots, c = .freeKey s ∨ s ∉ referenced ∧ c = .zeroData s := by
  rw [discardChanges, List.mem_flatMap]
  refine exists_congr fun s => and_congr_right ?_
  intro _
  by_cases hs : s ∈ referenced <;> simp [hs]

theorem mem_bitChange {referenced : List Nat} {s : Nat} {c : Change} :
    c ∈ w.bitChange referenced s ↔
      w.used s ∧ s ∉ referenced ∧ (c = .zeroData s ∨ c = .setBit s false) ∨
        ¬ w.used s ∧ s ∈ referenced ∧ c = .setBit s true := by
  rw [bitChange]
  by_cases hused : w.used s <;> by_cases hs : s ∈ referenced <;> simp [hused, hs]

theorem shared_after_zeroData (w : View) (slots : List Nat) :
    (w.after (slots.map .zeroData)).shared = w.shared :=
  after_eq View.shared fun c hc w => by
    obtain ⟨s, -, rfl⟩ := List.mem_map.1 hc
    rfl

/-- The changes of a repair. -/
def repairs (w : View) (sb : Superblock) (visit : List SharedBlock → List SharedBlock) :
    List Change :=
  w.sharedRepairs sb visit ++ (discardChanges (w.referenced sb) (w.discarded sb) ++
    (List.range sb.slots).flatMap (w.bitChange (w.referenced sb)))

end View

/-! ### Carrying out a plan -/

namespace Volume

variable {sb : Superblock} {r : Prop} {α β : Type} {w : View} {plan plan' : List Change} {s i : Nat}

/-- From every volume with the view `w`, the action returns `a` and makes the changes of the plan one
after the other. It fails only if the device does. -/
def Performs (sb : Superblock) (r : Prop) (act : VolumeM α) (w : View) (a : α) (plan : List Change) :
    Prop :=
  ∀ C v free, v.Shows sb r w free → w.Along C plan →
    Runs sb r C act v (fun a' u => a' = a ∧ ∃ free', u.Shows sb r (w.after plan) free') fun _ _ => ¬ r

namespace Performs

variable {act : VolumeM α} {a : α} {b : β}

theorem pure : Performs sb r (pure a) w a [] := fun _ _ _ hv _ => .pure ⟨rfl, _, hv⟩

theorem bind {f : α → VolumeM β} (h : Performs sb r act w a plan)
    (h' : Performs sb r (f a) (w.after plan) b plan') :
    Performs sb r (act >>= f) w b (plan ++ plan') := by
  intro C v free hv hC
  rw [View.along_append] at hC
  refine (h C v free hv hC.1).bind ?_
  rintro _ u ⟨rfl, free', hu⟩
  rw [View.after_append]
  exact h' C u free' hu hC.2

/-- An action that changes nothing, and then one that carries out the plan. -/
theorem bind_nil {f : α → VolumeM β} (h : Performs sb r act w a [])
    (h' : Performs sb r (f a) w b plan) : Performs sb r (act >>= f) w b plan := h.bind h'

/-- An action that carries out the plan, and then one that changes nothing. -/
theorem bind_pure {f : α → VolumeM β} (h : Performs sb r act w a plan)
    (h' : Performs sb r (f a) (w.after plan) b []) : Performs sb r (act >>= f) w b plan := by
  have hall := h.bind h'
  rwa [List.append_nil] at hall

theorem get_bind {f : Volume → VolumeM β}
    (h : ∀ v free, v.Shows sb r w free → Performs sb r (f v) w b plan) :
    Performs sb r (get >>= f) w b plan := fun C v free hv hC => .get_bind (h v free hv C v free hv hC)

end Performs

theorem performs_readPointer (hs : s < sb.slots) :
    Performs sb r (look (·.readPointer s)) w (w.pointer s) [] := fun _ _ free hv _ =>
  (runs_readPointer hv hs).mono (fun _ _ hq => ⟨hq.1, free, hq.2⟩) fun _ _ he => he.2

theorem performs_zeroData (hs : s < sb.slots) :
    Performs sb r (writeData s .zero) w () [.zeroData s] := fun _ _ free hv hC =>
  (runs_writeData hv hs hC.1).mono (fun _ _ hq => ⟨rfl, free, hq⟩) fun _ _ he => he.2

theorem performs_freeKey (hs : s < sb.slots) :
    Performs sb r (onDevice (KeyTable.writeEntry ⟨sb.keysStart, sb.slots⟩ s .free)) w ()
      [.freeKey s] := fun _ _ free hv hC =>
  (runs_writeKey hv hs hC.1).mono (fun _ _ hq => ⟨rfl, free, hq⟩) fun _ _ he => he.2

theorem performs_setShared (hi : i < sb.dedupCapacity) (e : DedupEntry) :
    Performs sb r (onDevice (DedupTable.writeEntry ⟨sb.dedupStart, sb.dedupBlocks⟩ i e)) w ()
      [.setShared i e] := fun _ _ free hv hC =>
  (runs_writeShared hv hi hC.1).mono (fun _ _ hq => ⟨rfl, free, hq⟩) fun _ _ he => he.2

theorem performs_markUsed (hs : s < sb.slots) :
    Performs sb r (markUsed s) w () [.setBit s true] := fun _ _ _ hv hC =>
  (runs_markUsed hv hs hC.1).mono (fun _ _ hq => ⟨rfl, _, hq⟩) fun _ _ he => he.2

theorem performs_release (hs : s < sb.slots) (hused : w.used s) :
    Performs sb r (release s) w () [.setBit s false] := fun _ _ _ hv hC =>
  (runs_release hv hs hused hC.1).mono (fun _ _ hq => ⟨rfl, _, hq⟩) fun _ _ he => he.2

theorem performs_reclaim (hs : s < sb.slots) (hused : w.used s) :
    Performs sb r (reclaim s) w () [.zeroData s, .setBit s false] :=
  (performs_zeroData hs).bind (performs_release hs hused)

/-- Reading the pointers of slots; a repair zeroes those that lead to none of the `blocks`. -/
theorem performs_checkPointers (repair : Bool) (blocks : List Nat) {slots : List Nat}
    (hlt : ∀ s ∈ slots, s < sb.slots) (hnodup : slots.Nodup) :
    Performs sb r (checkPointers repair blocks slots) w
      (w.pointersTo blocks slots, w.danglingIn blocks slots)
      (if repair then (w.danglingIn blocks slots).map .zeroData else []) := by
  induction slots generalizing w with
  | nil => cases repair <;> exact .pure
  | cons s slots ih =>
    rw [List.nodup_cons] at hnodup
    have hs := hlt s List.mem_cons_self
    have hlt' : ∀ t ∈ slots, t < sb.slots := fun t ht => hlt t (List.mem_cons_of_mem _ ht)
    have hrest := ih (w := w) hlt' hnodup.2
    rw [checkPointers]
    refine (performs_readPointer hs).bind_nil ?_
    by_cases hzero : w.pointer s = 0
    · have hpointers : w.pointersTo blocks (s :: slots) = w.pointersTo blocks slots := by
        simp [View.pointersTo, hzero]
      have hdangling : w.danglingIn blocks (s :: slots) = w.danglingIn blocks slots := by
        simp [View.danglingIn, hzero]
      rw [if_pos hzero, hpointers, hdangling]
      exact hrest
    · rw [if_neg hzero]
      by_cases hmem : w.pointer s ∈ blocks
      · have hpointers : w.pointersTo blocks (s :: slots) =
            w.pointer s :: w.pointersTo blocks slots := by
          simp [View.pointersTo, hzero, hmem]
        have hdangling : w.danglingIn blocks (s :: slots) = w.danglingIn blocks slots := by
          simp [View.danglingIn, hmem]
        rw [if_pos hmem, hpointers, hdangling]
        exact hrest.bind_pure .pure
      · have hpointers : w.pointersTo blocks (s :: slots) = w.pointersTo blocks slots := by
          simp [View.pointersTo, hmem]
        have hdangling : w.danglingIn blocks (s :: slots) = s :: w.danglingIn blocks slots := by
          simp [View.danglingIn, hzero, hmem]
        rw [if_neg hmem, hpointers, hdangling]
        cases repair
        · exact hrest.bind_pure .pure
        · -- Zeroing the block of `s` leaves the pointers of the other slots alone.
          have hother : ∀ t ∈ slots, (w.setData s .zero).pointer t = w.pointer t := by
            intro t ht
            have hts : t ≠ s := by
              rintro rfl
              exact hnodup.1 ht
            simp [View.pointer, hts]
          have hpointers' : (w.setData s .zero).pointersTo blocks slots =
              w.pointersTo blocks slots := by
            rw [View.pointersTo, View.pointersTo, List.map_congr_left hother]
          have hdangling' : (w.setData s .zero).danglingIn blocks slots =
              w.danglingIn blocks slots :=
            List.filter_congr fun t ht => by rw [hother t ht]
          have hdone := ih (w := w.setData s .zero) hlt' hnodup.2
          rw [hpointers', hdangling'] at hdone
          simp only [if_true, writePointer, pointerBlock_zero, List.map_cons] at hdone ⊢
          exact (performs_zeroData hs).bind (hdone.bind_pure .pure)

theorem performs_readShared (hi : i < sb.dedupCapacity) :
    Performs sb r (look fun v => DedupTable.entry ⟨sb.dedupStart, sb.dedupBlocks⟩ v.device i) w
      (w.shared i) [] := fun _ _ free hv _ =>
  (Runs.look_eq (hv.sharedEntry_eq hi)).mono (fun _ _ hq => ⟨hq.1, free, hq.2 ▸ hv.tick⟩)
    fun _ _ he => he.2

theorem performs_checkCounts (repair : Bool) (pointers : List Nat) {blocks : List SharedBlock}
    (hlt : ∀ b ∈ blocks, b.index < sb.dedupCapacity) (hnodup : (blocks.map (·.index)).Nodup) :
    Performs sb r (checkCounts repair ⟨sb.dedupStart, sb.dedupBlocks⟩ pointers blocks) w
      (countFixes pointers blocks) (if repair then w.countChanges pointers blocks else []) := by
  induction blocks generalizing w with
  | nil => cases repair <;> exact .pure
  | cons b blocks ih =>
    rw [List.map_cons, List.nodup_cons] at hnodup
    have hb := hlt b List.mem_cons_self
    have hlt' : ∀ a ∈ blocks, a.index < sb.dedupCapacity := fun a ha =>
      hlt a (List.mem_cons_of_mem _ ha)
    have hrest := ih (w := w) hlt' hnodup.2
    rw [checkCounts]
    by_cases hcount : refsTo pointers b.block = b.recorded
    · have hfixes : countFixes pointers (b :: blocks) = countFixes pointers blocks := by
        simp [countFixes, hcount]
      have hchanges : w.countChanges pointers (b :: blocks) = w.countChanges pointers blocks := by
        simp [View.countChanges, hcount]
      rw [if_pos hcount, hfixes, hchanges]
      exact hrest
    · have hfixes : countFixes pointers (b :: blocks) =
          ⟨b.index, b.recorded, refsTo pointers b.block⟩ :: countFixes pointers blocks := by
        simp [countFixes, hcount]
      have hchanges : w.countChanges pointers (b :: blocks) =
          .setShared b.index (View.corrected (w.shared b.index) (refsTo pointers b.block)) ::
            w.countChanges pointers blocks := by
        simp [View.countChanges, hcount]
      rw [if_neg hcount, hfixes, hchanges]
      cases repair
      · exact hrest.bind_pure .pure
      · -- Correcting the entry of `b` leaves the entries of the other blocks alone.
        obtain ⟨e, he⟩ : ∃ e, e = View.corrected (w.shared b.index) (refsTo pointers b.block) := ⟨_, rfl⟩
        have hother : (w.setShared b.index e).countChanges pointers blocks =
            w.countChanges pointers blocks := by
          refine List.map_congr_left ?_
          intro a ha
          have hne : a.index ≠ b.index := fun h =>
            hnodup.1 (h ▸ List.mem_map_of_mem (List.mem_filter.1 ha).1)
          rw [View.shared_setShared, if_neg hne]
        have hdone := ih (w := w.setShared b.index e) hlt' hnodup.2
        rw [hother] at hdone
        simp only [if_true] at hdone ⊢
        rw [← he]
        refine (performs_readShared hb).bind_nil ?_
        rw [View.corrected] at he
        rw [← he]
        exact (performs_setShared hb e).bind (hdone.bind_pure .pure)

theorem performs_freeDedupEntries {indices : List Nat} (hlt : ∀ i ∈ indices, i < sb.dedupCapacity) :
    Performs sb r (freeDedupEntries ⟨sb.dedupStart, sb.dedupBlocks⟩ indices) w ()
      (indices.map (.setShared · .free)) := by
  induction indices generalizing w with
  | nil => exact .pure
  | cons i indices ih =>
    exact (performs_setShared (hlt i List.mem_cons_self) .free).bind
      (ih fun j hj => hlt j (List.mem_cons_of_mem _ hj))

theorem performs_discardEntries (referenced : List Nat) {slots : List Nat}
    (hlt : ∀ s ∈ slots, s < sb.slots) :
    Performs sb r (discardEntries referenced slots) w () (View.discardChanges referenced slots) := by
  induction slots generalizing w with
  | nil => exact .pure
  | cons s slots ih =>
    have hs := hlt s List.mem_cons_self
    have hrest {w : View} := ih (w := w) fun t ht => hlt t (List.mem_cons_of_mem _ ht)
    rw [discardEntries, View.discardChanges, List.flatMap_cons]
    refine .get_bind ?_
    intro v free hv
    rw [hv.keyTable_eq]
    by_cases hmem : s ∈ referenced
    · simp only [hmem, not_true_eq_false, if_false, if_true]
      exact (performs_freeKey hs).bind hrest
    · simp only [hmem, not_false_eq_true, if_false, if_true]
      exact (performs_freeKey hs).bind ((performs_zeroData hs).bind hrest)

/-- Comparing the bits of slots. They are those of `w`; the rest of the view may have changed. -/
theorem performs_checkBitmap (repair : Bool) (referenced : List Nat) {slots : List Nat} {w' : View}
    (hlt : ∀ s ∈ slots, s < sb.slots) (hnodup : slots.Nodup)
    (hused : ∀ s ∈ slots, w'.used s = w.used s) :
    Performs sb r (checkBitmap repair referenced slots) w'
      (w.leakedIn referenced slots, w.unmarkedIn referenced slots)
      (if repair then slots.flatMap (w.bitChange referenced) else []) := by
  induction slots generalizing w' with
  | nil => cases repair <;> exact .pure
  | cons s slots ih =>
    rw [List.nodup_cons] at hnodup
    have hs := hlt s List.mem_cons_self
    have hused' : ∀ t ∈ slots, w'.used t = w.used t := fun t ht => hused t (List.mem_cons_of_mem _ ht)
    have hrest {u : View} (h : ∀ t ∈ slots, u.used t = w.used t) :=
      ih (fun t ht => hlt t (List.mem_cons_of_mem _ ht)) hnodup.2 h
    have hset (used : Bool) : ∀ t ∈ slots, (w'.setUsed s used).used t = w.used t := by
      intro t ht
      have hts : t ≠ s := by
        rintro rfl
        exact hnodup.1 ht
      rw [View.used_setUsed, if_neg hts, hused' t ht]
    have hreclaimed : ∀ t ∈ slots, (w'.after [.zeroData s, .setBit s false]).used t = w.used t :=
      hset false
    rw [checkBitmap]
    refine .get_bind ?_
    intro v free hv
    simp only [hv.isUsed_eq, hused s List.mem_cons_self]
    by_cases hleaked : w.used s ∧ s ∉ referenced
    · have hfirst : w.leakedIn referenced (s :: slots) = s :: w.leakedIn referenced slots := by
        simp [View.leakedIn, hleaked]
      have hsecond : w.unmarkedIn referenced (s :: slots) = w.unmarkedIn referenced slots := by
        simp [View.unmarkedIn, hleaked]
      rw [if_pos hleaked, hfirst, hsecond, List.flatMap_cons, View.bitChange, if_pos hleaked]
      cases repair
      · exact (hrest hused').bind_pure .pure
      · have hsused : w'.used s := (hused s List.mem_cons_self).trans hleaked.1
        exact (performs_reclaim hs hsused).bind ((hrest hreclaimed).bind_pure .pure)
    · by_cases hunmarked : ¬ w.used s ∧ s ∈ referenced
      · have hfirst : w.leakedIn referenced (s :: slots) = w.leakedIn referenced slots := by
          simp [View.leakedIn, hunmarked]
        have hsecond : w.unmarkedIn referenced (s :: slots) = s :: w.unmarkedIn referenced slots := by
          simp [View.unmarkedIn, hunmarked]
        rw [if_neg hleaked, if_pos hunmarked, hfirst, hsecond, List.flatMap_cons, View.bitChange,
          if_neg hleaked, if_pos hunmarked]
        cases repair
        · exact (hrest hused').bind_pure .pure
        · exact (performs_markUsed hs).bind ((hrest (hset true)).bind_pure .pure)
      · have hfirst : w.leakedIn referenced (s :: slots) = w.leakedIn referenced slots := by
          simp only [View.leakedIn, List.filter_cons, hleaked, decide_false, Bool.false_eq_true, if_false]
        have hsecond : w.unmarkedIn referenced (s :: slots) = w.unmarkedIn referenced slots := by
          simp only [View.unmarkedIn, List.filter_cons, hunmarked, decide_false, Bool.false_eq_true,
            if_false]
        rw [if_neg hleaked, if_neg hunmarked, hfirst, hsecond, List.flatMap_cons, View.bitChange,
          if_neg hleaked, if_neg hunmarked]
        exact hrest hused'

/-! ### The check as a whole -/

theorem performs_readTable : Performs sb r
    (look fun v => collect (DedupTable.entries ⟨sb.dedupStart, sb.dedupBlocks⟩ v.device)) w
    (sb.sharedEntries w) [] := fun _ _ free hv _ =>
  (Runs.look_eq hv.reads_shared.collect_eq).mono (fun _ _ hq => ⟨hq.1, free, hq.2 ▸ hv.tick⟩)
    fun _ _ he => he.2

theorem performs_readKeys :
    Performs sb r (look fun v => collect (v.keyTable.entries v.device)) w (sb.keyEntries w) [] :=
  fun _ _ free hv _ =>
    (Runs.look_eq hv.reads_entries.collect_eq).mono (fun _ _ hq => ⟨hq.1, free, hq.2 ▸ hv.tick⟩)
      fun _ _ he => he.2

variable {visit : List SharedBlock → List SharedBlock}

/-- Reading the pointers of the logical slots. -/
theorem performs_logicalPointers (hd : sb.isDedup) (repair : Bool) :
    Performs sb r (checkPointers repair (w.sharedBlocks sb) (w.logical sb)) w
      (w.pointers sb, w.dangling sb) (if repair then (w.dangling sb).map .zeroData else []) := by
  have hlogical : ∀ s ∈ w.logical sb, s < sb.slots := fun s hs => (View.mem_logical.1 hs).1
  have hpointers : w.pointersTo (w.sharedBlocks sb) (w.logical sb) = w.pointers sb := by
    rw [View.pointers, if_pos hd]
  have hdangling : w.danglingIn (w.sharedBlocks sb) (w.logical sb) = w.dangling sb := by
    rw [View.dangling, if_pos hd]
  rw [← hpointers, ← hdangling]
  exact performs_checkPointers repair (w.sharedBlocks sb) hlogical View.nodup_logical

/-- Comparing the counts of the accepted entries. The dedup table is that of `w`; the rest of the view may
have changed. -/
theorem performs_acceptedCounts (hvisit : ∀ l, (visit l).Perm l) (repair : Bool) {w' : View}
    (hshared : w'.shared = w.shared) :
    Performs sb r
      (checkCounts repair ⟨sb.dedupStart, sb.dedupBlocks⟩ (w.pointers sb) (visit (w.accepted sb))) w'
      (countFixes (w.pointers sb) (visit (w.accepted sb)))
      (if repair then w.countChanges (w.pointers sb) (visit (w.accepted sb)) else []) := by
  have hindex : ∀ b ∈ visit (w.accepted sb), b.index < sb.dedupCapacity := fun b hb =>
    (View.claims_of_mem ((hvisit _).mem_iff.1 hb)).index_lt
  have hdone := performs_checkCounts (r := r) (w := w') repair (w.pointers sb) hindex
    (View.nodup_visited hvisit)
  rw [View.countChanges, hshared] at hdone
  exact hdone

theorem performs_checkShared (hd : sb.isDedup) (hvisit : ∀ l, (visit l).Perm l) (repair : Bool) :
    Performs sb r (checkShared visit repair ⟨sb.dedupStart, sb.dedupBlocks⟩ (w.logical sb)) w
      ⟨w.kept sb, w.dangling sb, (w.report sb visit repair).refcountFixes, w.rejected sb⟩
      (if repair then w.sharedRepairs sb visit else []) := by
  have hread := performs_logicalPointers (r := r) (w := w) hd repair
  rw [checkShared]
  refine performs_readTable.bind_nil (.get_bind fun v free hv => ?_)
  rw [hv.superblock]
  cases repair
  · exact hread.bind_nil ((performs_acceptedCounts hvisit false rfl).bind_nil .pure)
  · -- Zeroing pointers leaves the entries alone that the counts are compared with.
    have hshared := w.shared_after_zeroData (w.dangling sb)
    refine hread.bind ((performs_acceptedCounts hvisit true hshared).bind ?_)
    exact (performs_freeDedupEntries fun i hi => (View.mem_rejected.1 hi).1).bind_pure .pure

/-- A plain volume has nothing to share, and there is nothing to repair. -/
theorem performs_plain (hd : ¬ sb.isDedup) (hvisit : ∀ l, (visit l).Perm l) (repair : Bool) :
    Performs sb r (pure (SharedFindings.mk [] [] [] [])) w
      ⟨w.kept sb, w.dangling sb, (w.report sb visit repair).refcountFixes, w.rejected sb⟩
      (if repair then w.sharedRepairs sb visit else []) := by
  have haccepted : w.accepted sb = [] := List.eq_nil_iff_forall_not_mem.2 fun b hb =>
    hd (View.claims_of_mem hb).isDedup
  have hvisited : visit (w.accepted sb) = [] := by
    rw [haccepted]
    exact (hvisit []).eq_nil
  have hdangling : w.dangling sb = [] := by rw [View.dangling, if_neg hd]
  have hrejected : w.rejected sb = [] := List.eq_nil_iff_forall_not_mem.2 fun i hi => by
    have hlt := (View.mem_rejected.1 hi).1
    rw [Superblock.dedupCapacity, Superblock.dedupBlocks, if_neg hd] at hlt
    omega
  have hkept : w.kept sb = [] := by rw [View.kept, haccepted]; rfl
  have hfixes : (w.report sb visit repair).refcountFixes = [] := by
    simp [View.report, hvisited, countFixes]
  have hplan : w.sharedRepairs sb visit = [] := by
    rw [View.sharedRepairs, hdangling, hrejected, hvisited]
    rfl
  rw [hkept, hdangling, hfixes, hrejected, hplan]
  cases repair <;> exact .pure

/-- What a check does after it has looked at the shared blocks. -/
def checkSlots (repair : Bool) (roles : List (Nat × SlotRole)) (shared : SharedFindings) :
    VolumeM CheckReport := do
  let referenced := slotsWhere (· = .logical) roles ++ shared.kept
  if repair then
    discardEntries referenced (slotsWhere SlotRole.isDiscarded roles)
  let (leaked, unmarked) ← checkBitmap repair referenced (List.range (← get).superblock.slots)
  return {
    leakedSlots := leaked
    unmarkedSlots := unmarked
    invalidEntries := slotsWhere (· = .invalid) roles
    duplicateKeys := slotsWhere (· = .duplicate) roles
    danglingPointers := shared.dangling
    badDedupEntries := shared.bad
    refcountFixes := shared.fixes
    repaired := repair }

/-- The changes that a check makes after it has looked at the shared blocks. -/
theorem performs_checkSlots {w' : View} (repair : Bool) (hused : w'.used = w.used) :
    Performs sb r
      (checkSlots repair (w.roles sb)
        ⟨w.kept sb, w.dangling sb, (w.report sb visit repair).refcountFixes, w.rejected sb⟩)
      w' (w.report sb visit repair)
      (if repair then View.discardChanges (w.referenced sb) (w.discarded sb) ++
        (List.range sb.slots).flatMap (w.bitChange (w.referenced sb)) else []) := by
  have hslots : ∀ s ∈ List.range sb.slots, s < sb.slots := fun s hs => List.mem_range.1 hs
  have hdiscarded : ∀ s ∈ w.discarded sb, s < sb.slots := fun s hs => (View.mem_discarded.1 hs).1
  have hbits (w' : View) (hused : w'.used = w.used) :=
    performs_checkBitmap (r := r) repair (w.referenced sb) hslots List.nodup_range fun s _ =>
      congrFun hused s
  cases repair with
  | false =>
    refine .get_bind ?_
    intro v free hv
    rw [hv.superblock]
    exact (hbits w' hused).bind_nil .pure
  | true =>
    refine (performs_discardEntries (w.referenced sb) hdiscarded).bind (.get_bind fun v free hv => ?_)
    rw [hv.superblock]
    have hdone : (w'.after (View.discardChanges (w.referenced sb) (w.discarded sb))).used = w'.used :=
      View.after_eq View.used fun c hc w => by
        obtain ⟨s, -, rfl | ⟨-, rfl⟩⟩ := View.mem_discardChanges.1 hc <;> rfl
    exact (hbits _ (hdone.trans hused)).bind_pure .pure

/-- A check reports what the view says, and a repair makes the changes that the view asks for. -/
theorem performs_check (hvisit : ∀ l, (visit l).Perm l) (repair : Bool) :
    Performs sb r (checkVisiting visit repair) w (w.report sb visit repair)
      (if repair then w.repairs sb visit else []) := by
  have hplan : (if repair then w.repairs sb visit else []) =
      (if repair then w.sharedRepairs sb visit else []) ++
        if repair then View.discardChanges (w.referenced sb) (w.discarded sb) ++
          (List.range sb.slots).flatMap (w.bitChange (w.referenced sb)) else [] := by
    cases repair <;> rfl
  have hused : (w.after (if repair then w.sharedRepairs sb visit else [])).used = w.used := by
    refine View.after_eq View.used ?_
    intro c hc w
    cases repair
    · exact absurd hc List.not_mem_nil
    · rcases View.mem_sharedRepairs hc with ⟨s, -, rfl⟩ | ⟨i, e, rfl⟩ <;> rfl
  rw [checkVisiting, hplan]
  refine performs_readKeys.bind_nil (.get_bind fun v free hv => ?_)
  rw [hv.dedupTable_eq]
  by_cases hd : sb.isDedup
  · rw [if_pos hd]
    exact (performs_checkShared hd hvisit repair).bind (performs_checkSlots repair hused)
  · rw [if_neg hd]
    exact (performs_plain hd hvisit repair).bind (performs_checkSlots repair hused)

end Volume

end BlockStore
