import BlockStore.Proofs.Plan

/-!
# What a repair leaves

A repair takes any view, however damaged, to one that a check has nothing to say about. The repaired
view is described here part by part: the key entries that stay are those of the logical slots, the
dedup entries that stay are the accepted ones that count something, and the bits are those of the slots
that were found to be referenced. Since the pointers of the logical slots either stay or become zero,
the findings in the repaired view are the same ones again.

## Main definitions

* `View.Within`: past the end of the tables there is nothing.
* `View.Tidy`: a check finds nothing.
* `View.repaired`: the view after a repair.

## Main results

* `View.Within.tidy_repaired`: nothing is left to be found after a repair.
* `View.Tidy.isClean_report`, `View.Tidy.repairs_eq_nil`: a check of a tidy view reports nothing, and
  a repair changes nothing.
-/

namespace BlockStore

namespace View

/-- Past the end of its tables the view is that of an empty volume. -/
structure Within (w : View) (sb : Superblock) : Prop where
  keys : ∀ {s}, sb.slots ≤ s → w.keys s = .free
  shared : ∀ {i}, sb.dedupCapacity ≤ i → w.shared i = .free

theorem within_view (sb : Superblock) (im : Image) : (sb.view im).Within sb where
  keys h := if_neg (Nat.not_lt.2 h)
  shared h := if_neg (Nat.not_lt.2 h)

/-- A check has nothing to report. -/
structure Tidy (w : View) (sb : Superblock) : Prop where
  valid : ∀ s, (w.keys s).isValid
  first : ∀ {s}, w.Active s → w.First s
  rejected : w.rejected sb = []
  dangling : w.dangling sb = []
  counted : ∀ b ∈ w.accepted sb, w.actual sb b.block = b.recorded
  used_iff : ∀ s < sb.slots, w.used s ↔ s ∈ w.referenced sb

variable {w : View} {sb : Superblock} {length : Nat} {visit : List SharedBlock → List SharedBlock}
  {s i : Nat} {b : SharedBlock}

/-! ### Tidy views -/

namespace Tidy

theorem discarded_eq_nil (h : w.Tidy sb) : w.discarded sb = [] :=
  View.discarded_eq_nil h.valid fun hs => h.first hs

theorem not_miscounted (h : w.Tidy sb) (hvisit : ∀ l, (visit l).Perm l) :
    ((visit (w.accepted sb)).filter fun b => refsTo (w.pointers sb) b.block ≠ b.recorded) = [] := by
  rw [List.filter_eq_nil_iff]
  intro b hb
  have hcount := h.counted b ((hvisit _).mem_iff.1 hb)
  rw [actual] at hcount
  simp [hcount]

/-- A check of a tidy view reports nothing. -/
theorem isClean_report (h : w.Tidy sb) (hvisit : ∀ l, (visit l).Perm l) (repair : Bool) :
    (w.report sb visit repair).isClean := by
  have hleaked : w.leakedIn (w.referenced sb) (List.range sb.slots) = [] := by
    rw [leakedIn, List.filter_eq_nil_iff]
    intro s hs
    have := h.used_iff s (List.mem_range.1 hs)
    simp [this]
  have hunmarked : w.unmarkedIn (w.referenced sb) (List.range sb.slots) = [] := by
    rw [unmarkedIn, List.filter_eq_nil_iff]
    intro s hs
    have := h.used_iff s (List.mem_range.1 hs)
    simp [this]
  have hfixes : countFixes (w.pointers sb) (visit (w.accepted sb)) = [] := by
    rw [countFixes, h.not_miscounted hvisit]
    rfl
  simp [CheckReport.isClean, report, hleaked, hunmarked, hfixes, slotsWhere_eq_nil h.discarded_eq_nil .invalid rfl,
    slotsWhere_eq_nil h.discarded_eq_nil .duplicate rfl, h.dangling, h.rejected]

/-- A repair of a tidy view changes nothing. -/
theorem repairs_eq_nil (h : w.Tidy sb) (hvisit : ∀ l, (visit l).Perm l) :
    w.repairs sb visit = [] := by
  have hbits : (List.range sb.slots).flatMap (w.bitChange (w.referenced sb)) = [] := by
    rw [List.flatMap_eq_nil_iff]
    intro s hs
    have := h.used_iff s (List.mem_range.1 hs)
    simp [bitChange, this]
  rw [repairs, sharedRepairs, countChanges, h.dangling, h.rejected, h.not_miscounted hvisit,
    h.discarded_eq_nil, hbits]
  rfl

end Tidy

/-! ### The parts of the repaired view -/

/-- The view after a repair. -/
def repaired (w : View) (sb : Superblock) (visit : List SharedBlock → List SharedBlock) : View :=
  w.after (w.repairs sb visit)

theorem keys_after_discardChanges (w : View) (referenced slots : List Nat) (s : Nat) :
    (w.after (discardChanges referenced slots)).keys s = if s ∈ slots then .free else w.keys s := by
  induction slots generalizing w with
  | nil => rfl
  | cons t slots ih =>
    have hhead : (w.after (if t ∈ referenced then [.freeKey t] else [.freeKey t, .zeroData t])).keys =
        (w.setKey t .free).keys := by
      split <;> rfl
    rw [discardChanges, List.flatMap_cons, after_append, ← discardChanges, ih, hhead, keys_setKey]
    by_cases hst : s = t <;> by_cases hmem : s ∈ slots <;> simp [hst, hmem]

theorem data_after_zeroData (w : View) (slots : List Nat) (s : Nat) :
    (w.after (slots.map .zeroData)).data s = if s ∈ slots then .zero else w.data s := by
  induction slots generalizing w with
  | nil => rfl
  | cons t slots ih =>
    rw [List.map_cons, after_cons, ih, Change.apply, data_setData]
    by_cases hst : s = t <;> by_cases hmem : s ∈ slots <;> simp [hst, hmem]

theorem shared_after_of_not_mem {α : Type} {l : List α} {index : α → Nat} {entry : α → DedupEntry}
    (h : ∀ x ∈ l, index x ≠ i) :
    (w.after (l.map fun x => .setShared (index x) (entry x))).shared i = w.shared i := by
  refine after_eq (fun w => w.shared i) ?_
  intro c hc w
  obtain ⟨x, hx, rfl⟩ := List.mem_map.1 hc
  exact if_neg (Ne.symm (h x hx))

theorem shared_after_of_mem {α : Type} {l : List α} {index : α → Nat} {entry : α → DedupEntry}
    {e : DedupEntry} (h : ∀ x ∈ l, index x = i → entry x = e)
    (hi : (∃ x ∈ l, index x = i) ∨ w.shared i = e) :
    (w.after (l.map fun x => .setShared (index x) (entry x))).shared i = e := by
  induction l generalizing w with
  | nil => exact hi.resolve_left fun ⟨x, hx, _⟩ => List.not_mem_nil hx
  | cons y l ih =>
    rw [List.map_cons, after_cons]
    refine ih (fun x hx => h x (List.mem_cons_of_mem _ hx)) ?_
    rw [Change.apply, shared_setShared]
    by_cases hy : i = index y
    · rw [if_pos hy]
      exact .inr (h y List.mem_cons_self hy.symm)
    · rw [if_neg hy]
      refine hi.imp_left fun ⟨x, hx, hxi⟩ => ⟨x, ?_, hxi⟩
      rcases List.mem_cons.1 hx with rfl | hx
      · exact absurd hxi.symm hy
      · exact hx

theorem used_after_bitChange {referenced slots : List Nat} {u : View}
    (h : u.used s = w.used s ∨ u.used s = decide (s ∈ referenced)) :
    (u.after (slots.flatMap (w.bitChange referenced))).used s =
      if s ∈ slots then decide (s ∈ referenced) else u.used s := by
  induction slots generalizing u with
  | nil => rfl
  | cons t slots ih =>
    have hhead : (u.after (w.bitChange referenced t)).used s =
        if s = t then decide (s ∈ referenced) else u.used s := by
      rw [bitChange]
      by_cases hst : s = t
      · subst hst
        rw [if_pos rfl]
        by_cases hused : w.used s <;> by_cases hmem : s ∈ referenced <;>
          simp [hused, hmem, after_cons, Change.apply] at h ⊢ <;> exact h
      · rw [if_neg hst]
        split
        · simp [after_cons, Change.apply, hst]
        · split
          · simp [after_cons, Change.apply, hst]
          · rfl
    rw [List.flatMap_cons, after_append, ih, hhead]
    · by_cases hst : s = t <;> by_cases hmem : s ∈ slots <;> simp [hst, hmem]
    · rw [hhead]
      split
      · exact .inr rfl
      · exact h

theorem keys_after_sharedRepairs : (w.after (w.sharedRepairs sb visit)).keys = w.keys :=
  after_eq View.keys fun c hc w => by
    rcases mem_sharedRepairs hc with ⟨s, -, rfl⟩ | ⟨i, e, rfl⟩ <;> rfl

theorem used_after_sharedRepairs : (w.after (w.sharedRepairs sb visit)).used = w.used :=
  after_eq View.used fun c hc w => by
    rcases mem_sharedRepairs hc with ⟨s, -, rfl⟩ | ⟨i, e, rfl⟩ <;> rfl

theorem used_after_discardChanges (w : View) (referenced slots : List Nat) :
    (w.after (discardChanges referenced slots)).used = w.used :=
  after_eq View.used fun c hc w => by
    obtain ⟨s, -, rfl | ⟨-, rfl⟩⟩ := mem_discardChanges.1 hc <;> rfl

theorem keys_repaired (s : Nat) : (w.repaired sb visit).keys s =
    if s ∈ w.discarded sb then .free else w.keys s := by
  rw [repaired, repairs, after_append, after_append, after_eq View.keys, keys_after_discardChanges,
    keys_after_sharedRepairs]
  intro c hc w
  obtain ⟨s, -, hc⟩ := List.mem_flatMap.1 hc
  rcases mem_bitChange.1 hc with ⟨-, -, rfl | rfl⟩ | ⟨-, -, rfl⟩ <;> rfl

theorem used_repaired (s : Nat) : (w.repaired sb visit).used s =
    if s < sb.slots then decide (s ∈ w.referenced sb) else w.used s := by
  have hbefore : ((w.after (w.sharedRepairs sb visit)).after
      (discardChanges (w.referenced sb) (w.discarded sb))).used = w.used :=
    (used_after_discardChanges _ _ _).trans used_after_sharedRepairs
  rw [repaired, repairs, after_append, after_append, used_after_bitChange (.inl (congrFun hbefore s)),
    hbefore]
  simp

/-- Only the changes of the counts and the rejected entries matter for the dedup table. -/
theorem shared_repaired : (w.repaired sb visit).shared =
    (((w.after ((w.dangling sb).map .zeroData)).after
      (w.countChanges (w.pointers sb) (visit (w.accepted sb)))).after
        ((w.rejected sb).map (.setShared · .free))).shared := by
  rw [repaired, repairs, after_append, after_append, after_eq View.shared, after_eq View.shared,
    sharedRepairs, after_append, after_append]
  · intro c hc w
    obtain ⟨s, -, rfl | ⟨-, rfl⟩⟩ := mem_discardChanges.1 hc <;> rfl
  · intro c hc w
    obtain ⟨s, -, hc⟩ := List.mem_flatMap.1 hc
    rcases mem_bitChange.1 hc with ⟨-, -, rfl | rfl⟩ | ⟨-, -, rfl⟩ <;> rfl

theorem shared_repaired_of_rejected (hi : i ∈ w.rejected sb) :
    (w.repaired sb visit).shared i = .free := by
  rw [shared_repaired]
  exact shared_after_of_mem (fun _ _ _ => rfl) (.inl ⟨i, hi, rfl⟩)

section Visit

variable (hvisit : ∀ l, (visit l).Perm l)

include hvisit

theorem shared_repaired_of_not_mem (hi : i ∉ w.rejected sb) (hb : ∀ b ∈ w.accepted sb, b.index ≠ i) :
    (w.repaired sb visit).shared i = w.shared i := by
  rw [shared_repaired, shared_after_of_not_mem, countChanges, shared_after_of_not_mem,
    shared_after_zeroData]
  · exact fun b hb' => hb b ((hvisit _).mem_iff.1 (List.mem_filter.1 hb').1)
  · rintro j hj rfl
    exact hi hj

theorem shared_repaired_of_accepted (hb : b ∈ w.accepted sb) :
    (w.repaired sb visit).shared b.index =
      if w.actual sb b.block = b.recorded then w.shared b.index
      else corrected (w.shared b.index) (w.actual sb b.block) := by
  have hvisited {a : SharedBlock} (ha : a ∈ visit (w.accepted sb)) (h : a.index = b.index) : a = b :=
    (eq_or_apart ((hvisit _).mem_iff.1 ha) hb).resolve_right fun hab => hab.index h
  have hrejected : ∀ j ∈ w.rejected sb, j ≠ b.index := fun j hj hji =>
    (mem_rejected.1 hj).2.2 b hb hji.symm
  rw [shared_repaired, shared_after_of_not_mem hrejected, countChanges]
  split
  · rename_i hcount
    rw [shared_after_of_not_mem, shared_after_zeroData]
    intro a ha hab
    rw [List.mem_filter, decide_eq_true_eq] at ha
    obtain rfl := hvisited ha.1 hab
    exact ha.2 hcount
  · rename_i hcount
    refine shared_after_of_mem ?_ (.inl ⟨b, ?_, rfl⟩)
    · intro a ha hab
      rw [hvisited (List.mem_filter.1 ha).1 hab]
      rfl
    · rw [List.mem_filter, decide_eq_true_eq]
      exact ⟨(hvisit _).mem_iff.2 hb, hcount⟩

end Visit

/-- The data block of a referenced slot is what it was, unless it is a dangling pointer. -/
theorem data_repaired (hs : s ∈ w.referenced sb) : (w.repaired sb visit).data s =
    if s ∈ w.dangling sb then .zero else w.data s := by
  rw [repaired, repairs, after_append, after_append, after_eq (fun w => w.data s),
    after_eq (fun w => w.data s), sharedRepairs, after_append, after_eq (fun w => w.data s),
    data_after_zeroData]
  · intro c hc w
    rcases List.mem_append.1 hc with hc | hc <;>
      · obtain ⟨_, -, rfl⟩ := List.mem_map.1 hc
        rfl
  · intro c hc w
    obtain ⟨t, -, rfl | ⟨ht, rfl⟩⟩ := mem_discardChanges.1 hc
    · rfl
    · refine if_neg ?_
      rintro rfl
      exact ht hs
  · intro c hc w
    obtain ⟨t, -, hc⟩ := List.mem_flatMap.1 hc
    rcases mem_bitChange.1 hc with ⟨-, ht, rfl | rfl⟩ | ⟨-, -, rfl⟩
    · refine if_neg ?_
      rintro rfl
      exact ht hs
    · rfl
    · rfl

/-! ### The slots of the repaired view -/

theorem First.not_discarded (h : w.First s) : s ∉ w.discarded sb := fun hs => by
  rcases (mem_discarded.1 hs).2 with hinvalid | ⟨-, hlater⟩
  · exact hinvalid h.1.isValid
  · exact hlater h

/-- The slots that hold a key after the repair are the logical ones. -/
theorem Within.active_repaired (hw : w.Within sb) :
    (w.repaired sb visit).Active s ↔ s ∈ w.logical sb := by
  have hfree : KeyEntry.free.isActive = false := by decide
  rw [Active, keys_repaired, mem_logical]
  constructor
  · intro h
    split at h
    · rw [hfree] at h
      cases h
    · rename_i hkept
      have hs : s < sb.slots := by
        refine Nat.lt_of_not_le ?_
        intro hle
        rw [hw.keys hle, hfree] at h
        cases h
      rw [mem_discarded, not_and] at hkept
      have hfirst := (not_or.1 (hkept hs)).2
      exact ⟨hs, Classical.byContradiction fun hno => hfirst ⟨h, hno⟩⟩
  · rintro ⟨-, hfirst⟩
    rw [if_neg hfirst.not_discarded]
    exact hfirst.1

theorem keys_repaired_of_logical (hs : s ∈ w.logical sb) :
    (w.repaired sb visit).keys s = w.keys s := by
  rw [keys_repaired, if_neg (mem_logical.1 hs).2.not_discarded]

theorem Within.first_repaired (hw : w.Within sb) :
    (w.repaired sb visit).First s ↔ s ∈ w.logical sb := by
  constructor
  · exact fun h => hw.active_repaired.1 h.1
  · intro h
    refine ⟨hw.active_repaired.2 h, fun t hts ht => ?_⟩
    have ht := hw.active_repaired.1 ht
    rw [keys_repaired_of_logical h, keys_repaired_of_logical ht]
    exact (mem_logical.1 h).2.2 t hts (mem_logical.1 ht).2.1

theorem Within.valid_repaired (hw : w.Within sb) (s : Nat) :
    ((w.repaired sb visit).keys s).isValid := by
  have hfree : KeyEntry.free.isValid := by decide
  rw [keys_repaired]
  split
  · exact hfree
  · rename_i hkept
    by_cases hs : s < sb.slots
    · rw [mem_discarded, not_and] at hkept
      exact Classical.byContradiction fun hno => hkept hs (.inl hno)
    · rw [hw.keys (Nat.not_lt.1 hs)]
      exact hfree

theorem Within.logical_repaired (hw : w.Within sb) :
    (w.repaired sb visit).logical sb = w.logical sb := by
  rw [logical_eq_filter, logical_eq_filter]
  refine List.filter_congr ?_
  intro s hs
  rw [decide_eq_decide, hw.first_repaired, mem_logical, and_iff_right (List.mem_range.1 hs)]

/-- The pointer of a logical slot stays, or becomes zero if it is dangling. -/
theorem pointer_repaired (hs : s ∈ w.logical sb) : (w.repaired sb visit).pointer s =
    if s ∈ w.dangling sb then 0 else w.pointer s := by
  have hreferenced : s ∈ w.referenced sb := List.mem_append_left _ hs
  rw [pointer, data_repaired hreferenced]
  split
  · exact Volume.pointer_zero
  · rfl

/-! ### The dedup entries of the repaired view -/

/-- A repair keeps the entry: its count is right, or is not corrected to zero. -/
def Stays (w : View) (sb : Superblock) (b : SharedBlock) : Prop :=
  w.actual sb b.block = b.recorded ∨ w.actual sb b.block ≠ 0

theorem actual_lt (w : View) (sb : Superblock) (n : Nat) : w.actual sb n < 2 ^ 16 := by
  rw [actual, refsTo, Nat.one_shiftLeft]
  omega

/-- What an entry that stays says after the repair. -/
theorem entry_repaired (hvisit : ∀ l, (visit l).Perm l) (hb : b ∈ w.accepted sb)
    (hstay : w.Stays sb b) :
    (w.repaired sb visit).Held b.index ∧
      ((w.repaired sb visit).shared b.index).block = b.block ∧
      ((w.repaired sb visit).shared b.index).key = b.content ∧
      ((w.repaired sb visit).shared b.index).refCount.toNat = w.actual sb b.block := by
  have hclaims := claims_of_mem hb
  rw [Held, shared_repaired_of_accepted hvisit hb]
  split
  · rename_i hcount
    exact ⟨hclaims.held, hclaims.block_eq, hclaims.content_eq, hclaims.recorded_eq.trans hcount.symm⟩
  · rename_i hcount
    have hpos := hstay.resolve_left hcount
    rw [corrected, if_neg hpos]
    exact ⟨hclaims.held, hclaims.block_eq, hclaims.content_eq,
      UInt16.toNat_ofNat_of_lt' (w.actual_lt sb b.block)⟩

/-- The entries that hold a block after the repair are the accepted ones that stay. -/
theorem Within.held_repaired (hw : w.Within sb) (hvisit : ∀ l, (visit l).Perm l) :
    (w.repaired sb visit).Held i ↔ ∃ b ∈ w.accepted sb, b.index = i ∧ w.Stays sb b := by
  have hfree : DedupEntry.free.isActive = false := by decide
  constructor
  · intro h
    by_cases hb : ∃ b ∈ w.accepted sb, b.index = i
    · obtain ⟨b, hb, rfl⟩ := hb
      refine ⟨b, hb, rfl, ?_⟩
      rw [Held, shared_repaired_of_accepted hvisit hb] at h
      split at h
      · rename_i hcount
        exact .inl hcount
      · rw [corrected] at h
        split at h
        · rw [hfree] at h
          cases h
        · rename_i hpos
          exact .inr hpos
    · exfalso
      have hother : ∀ b ∈ w.accepted sb, b.index ≠ i := fun b hmem hi => hb ⟨b, hmem, hi⟩
      by_cases hi : i ∈ w.rejected sb
      · rw [Held, shared_repaired_of_rejected hi, hfree] at h
        cases h
      · rw [Held, shared_repaired_of_not_mem hvisit hi hother] at h
        refine hi (mem_rejected.2 ⟨Nat.lt_of_not_le fun hle => ?_, h, hother⟩)
        rw [hw.shared hle, hfree] at h
        cases h
  · rintro ⟨b, hb, rfl, hstay⟩
    exact (entry_repaired hvisit hb hstay).1

theorem Within.shareable_repaired (hw : w.Within sb) (hvisit : ∀ l, (visit l).Perm l) :
    (w.repaired sb visit).Shareable sb := by
  refine ⟨fun {i} hi => ?_, fun {i j} hi hj hij => ?_, fun {i j} hi hj hij => ?_⟩
  · obtain ⟨b, hb, rfl, hstay⟩ := (hw.held_repaired hvisit).1 hi
    have hclaims := claims_of_mem hb
    refine ⟨b.slot, hclaims.slot_lt, (entry_repaired hvisit hb hstay).2.1.trans hclaims.block_of, ?_⟩
    rw [hw.logical_repaired]
    exact hclaims.not_logical
  · obtain ⟨a, ha, rfl, hstay⟩ := (hw.held_repaired hvisit).1 hi
    obtain ⟨b, hb, rfl, hstay'⟩ := (hw.held_repaired hvisit).1 hj
    rw [(entry_repaired hvisit ha hstay).2.1, (entry_repaired hvisit hb hstay').2.1] at hij
    exact congrArg _ ((eq_or_apart ha hb).resolve_right fun h => h.block hij)
  · obtain ⟨a, ha, rfl, hstay⟩ := (hw.held_repaired hvisit).1 hi
    obtain ⟨b, hb, rfl, hstay'⟩ := (hw.held_repaired hvisit).1 hj
    rw [(entry_repaired hvisit ha hstay).2.2.1, (entry_repaired hvisit hb hstay').2.2.1] at hij
    exact congrArg _ ((eq_or_apart ha hb).resolve_right fun h => h.content hij)

theorem Within.claims_repaired (hw : w.Within sb) (hvisit : ∀ l, (visit l).Perm l)
    (hb : b ∈ w.accepted sb) (hstay : w.Stays sb b) :
    (w.repaired sb visit).Claims sb { b with recorded := w.actual sb b.block } := by
  have hclaims := claims_of_mem hb
  obtain ⟨hheld, hblock, hcontent, hcount⟩ := entry_repaired hvisit hb hstay
  refine ⟨hclaims.index_lt, hheld, hblock, hclaims.slot_lt, hclaims.block_of, ?_, hcontent, hcount⟩
  rw [hw.logical_repaired]
  exact hclaims.not_logical

/-- The blocks accepted after the repair are those that stay, with their counts put right. -/
theorem Within.mem_accepted_repaired (hw : w.Within sb) (hvisit : ∀ l, (visit l).Perm l)
    {a : SharedBlock} : a ∈ (w.repaired sb visit).accepted sb ↔
      ∃ b ∈ w.accepted sb, w.Stays sb b ∧ a = { b with recorded := w.actual sb b.block } := by
  have hforward {a : SharedBlock} (ha : a ∈ (w.repaired sb visit).accepted sb) :
      ∃ b ∈ w.accepted sb, w.Stays sb b ∧ a = { b with recorded := w.actual sb b.block } := by
    have hclaims := claims_of_mem ha
    obtain ⟨b, hb, hindex, hstay⟩ := (hw.held_repaired hvisit).1 hclaims.held
    exact ⟨b, hb, hstay, hclaims.eq_of_index_eq (hw.claims_repaired hvisit hb hstay) hindex.symm⟩
  refine ⟨hforward, ?_⟩
  rintro ⟨b, hb, hstay, rfl⟩
  have hclaims := hw.claims_repaired hvisit hb hstay
  obtain ⟨a, ha, hindex⟩ :=
    (hw.shareable_repaired hvisit).exists_accepted hclaims.index_lt hclaims.held
  rwa [← (claims_of_mem ha).eq_of_index_eq hclaims hindex]

/-- The pointers to an accepted block are the same ones after the repair. -/
theorem Within.logicalRefs_repaired (hw : w.Within sb) (hfits : sb.Fits length)
    (hb : b ∈ w.accepted sb) :
    (w.repaired sb visit).logicalRefs sb b.block = w.logicalRefs sb b.block := by
  have hne := (claims_of_mem hb).block_ne_zero hfits
  rw [logicalRefs, logicalRefs, hw.logical_repaired]
  refine List.countP_congr ?_
  intro s hs
  rw [pointer_repaired hs, decide_eq_true_eq, decide_eq_true_eq]
  split
  · rename_i hdangling
    refine ⟨fun h => absurd h.symm hne, fun h => ?_⟩
    exact absurd (List.mem_map.2 ⟨b, hb, h.symm⟩) (mem_dangling.1 hdangling).2.2.2
  · exact Iff.rfl

theorem Within.actual_repaired (hw : w.Within sb) (hfits : sb.Fits length)
    (hvisit : ∀ l, (visit l).Perm l) (hb : b ∈ w.accepted sb) (hstay : w.Stays sb b) :
    (w.repaired sb visit).actual sb b.block = w.actual sb b.block := by
  have hcount := actual_eq hfits ((hw.mem_accepted_repaired hvisit).2 ⟨b, hb, hstay, rfl⟩)
  rw [actual_eq hfits hb, ← hw.logicalRefs_repaired hfits hb]
  exact hcount

theorem Within.kept_repaired (hw : w.Within sb) (hfits : sb.Fits length)
    (hvisit : ∀ l, (visit l).Perm l) : s ∈ (w.repaired sb visit).kept sb ↔ s ∈ w.kept sb := by
  simp only [kept, List.mem_map, List.mem_filter, decide_eq_true_eq]
  constructor
  · rintro ⟨a, ⟨ha, hpos⟩, hslot⟩
    obtain ⟨b, hb, hstay, rfl⟩ := (hw.mem_accepted_repaired hvisit).1 ha
    rw [hw.actual_repaired hfits hvisit hb hstay] at hpos
    exact ⟨b, ⟨hb, hpos⟩, hslot⟩
  · rintro ⟨b, ⟨hb, hpos⟩, hslot⟩
    have hstay : w.Stays sb b := .inr hpos
    refine ⟨_, ⟨(hw.mem_accepted_repaired hvisit).2 ⟨b, hb, hstay, rfl⟩, ?_⟩, hslot⟩
    rw [hw.actual_repaired hfits hvisit hb hstay]
    exact hpos

theorem Within.mem_referenced_repaired (hw : w.Within sb) (hfits : sb.Fits length)
    (hvisit : ∀ l, (visit l).Perm l) :
    s ∈ (w.repaired sb visit).referenced sb ↔ s ∈ w.referenced sb := by
  rw [referenced, referenced, List.mem_append, List.mem_append, hw.logical_repaired,
    hw.kept_repaired hfits hvisit]

/-- After a repair there is nothing left to be found. -/
theorem Within.tidy_repaired (hw : w.Within sb) (hfits : sb.Fits length)
    (hvisit : ∀ l, (visit l).Perm l) : (w.repaired sb visit).Tidy sb where
  valid := hw.valid_repaired
  first h := hw.first_repaired.2 (hw.active_repaired.1 h)
  rejected := (hw.shareable_repaired hvisit).rejected_eq_nil
  dangling := by
    refine List.eq_nil_iff_forall_not_mem.2 ?_
    intro s hs
    obtain ⟨hd, hlogical, hne, hnot⟩ := mem_dangling.1 hs
    rw [hw.logical_repaired] at hlogical
    rw [pointer_repaired hlogical] at hne hnot
    have hkept : s ∉ w.dangling sb := fun h => hne (if_pos h)
    rw [if_neg hkept] at hne hnot
    obtain ⟨b, hb, hblock⟩ := exists_block_of_not_dangling hd hlogical hkept hne
    have hstay : w.Stays sb b := .inr ((actual_ne_zero_iff hfits hb).2 ⟨s, hlogical, hblock.symm⟩)
    exact hnot (List.mem_map.2 ⟨_, (hw.mem_accepted_repaired hvisit).2 ⟨b, hb, hstay, rfl⟩, hblock⟩)
  counted a ha := by
    obtain ⟨b, hb, hstay, rfl⟩ := (hw.mem_accepted_repaired hvisit).1 ha
    have hcount := hw.actual_repaired hfits hvisit hb hstay
    exact hcount
  used_iff s hs := by
    rw [used_repaired, if_pos hs, decide_eq_true_eq, hw.mem_referenced_repaired hfits hvisit]

end View

end BlockStore
