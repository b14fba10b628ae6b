import BlockStore.Proofs.Repair
import BlockStore.Proofs.Sharing

/-!
# The check of a volume without damage

What interrupted operations leave behind is harmless: slots that nobody uses, and reference counts that
are too high. So a check of a sound view has nothing else to report, and its repair frees such slots and
lowers such counts. After each write of that repair the view is still sound and stores the same map.

## Main definitions

* `CheckReport.Harmless`: a report of such things only.

## Main results

* `View.Sound.residue`: what a check can report of a sound view.
* `View.Sound.along_repairs`: every step of the repair keeps the view sound and its map.
-/

namespace BlockStore

/-- Nothing is reported but slots that nobody uses and reference counts that are too high. -/
structure CheckReport.Harmless (report : CheckReport) : Prop where
  unmarkedSlots : report.unmarkedSlots = []
  invalidEntries : report.invalidEntries = []
  duplicateKeys : report.duplicateKeys = []
  danglingPointers : report.danglingPointers = []
  badDedupEntries : report.badDedupEntries = []
  actual_lt : ∀ f ∈ report.refcountFixes, f.actual < f.recorded

namespace View

variable {w u : View} {sb : Superblock} {length : Nat} {P : Block → Prop} {σ τ : Nat → Nat}
  {visit : List SharedBlock → List SharedBlock} {s i : Nat} {b : SharedBlock}

namespace Sound

theorem first (h : w.Sound sb P σ) (hs : w.Active s) : w.First s :=
  ⟨hs, fun _ hlt ht hkey => Nat.ne_of_lt hlt (h.unique ht hs hkey)⟩

theorem valid (h : w.Sound sb P σ) (s : Nat) : (w.keys s).isValid := by
  by_cases hs : w.Active s
  · exact hs.isValid
  · rw [h.vacant hs]
    decide

theorem mem_logical (h : w.Sound sb P σ) : s ∈ w.logical sb ↔ w.Active s :=
  ⟨fun hs => (View.mem_logical.1 hs).2.1, fun hs => View.mem_logical.2 ⟨h.active_lt hs, h.first hs⟩⟩

theorem shareable (h : w.Sound sb P σ) : w.Shareable sb where
  home hi := by
    obtain ⟨s, hs, hblock, -, hidle, -⟩ := h.home hi
    exact ⟨s, hs, hblock, fun hmem => hidle (h.mem_logical.1 hmem)⟩
  block_inj := h.block_inj
  content_inj := h.content_inj

theorem discarded_eq_nil (h : w.Sound sb P σ) : w.discarded sb = [] :=
  View.discarded_eq_nil h.valid fun hs => h.first hs

theorem dangling_eq_nil (h : w.Sound sb P σ) : w.dangling sb = [] := by
  refine List.eq_nil_iff_forall_not_mem.2 ?_
  intro s hs
  obtain ⟨hd, hlogical, hne, hnot⟩ := mem_dangling.1 hs
  obtain ⟨i, hi, hblock⟩ := h.backed hd (h.mem_logical.1 hlogical) hne
  obtain ⟨b, hb, rfl⟩ := h.shareable.exists_accepted (h.held_lt hi) hi
  exact hnot (List.mem_map.2 ⟨b, hb, (claims_of_mem hb).block_eq.symm.trans hblock⟩)

/-- The references to a shared block are all counted, and there are no more of them than recorded. -/
theorem actual_eq_refs (hfits : sb.Fits length) (h : w.Sound sb P σ) (hb : b ∈ w.accepted sb) :
    w.actual sb b.block = w.refs sb b.block ∧ w.refs sb b.block ≤ b.recorded ∧ 1 ≤ b.recorded := by
  have hclaims := claims_of_mem hb
  obtain ⟨hpos, hcount⟩ := h.counted hclaims.held
  have hlt := (w.shared b.index).refCount.toNat_lt
  rw [hclaims.recorded_eq] at hpos hcount hlt
  rw [hclaims.block_eq] at hcount
  refine ⟨?_, by omega, hpos⟩
  rw [actual_eq hfits hb, logicalRefs_eq fun hs => h.first hs]
  omega

theorem slot_used (h : w.Sound sb P σ) (hb : b ∈ w.accepted sb) : w.used b.slot :=
  have hclaims := claims_of_mem hb
  (h.owner hclaims.held (hclaims.block_eq.trans hclaims.block_of)).1

theorem used_of_referenced (hfits : sb.Fits length) (h : w.Sound sb P σ) (hs : s ∈ w.referenced sb) :
    w.used s := by
  rcases List.mem_append.1 hs with hs | hs
  · exact h.used_of_active (h.mem_logical.1 hs)
  · obtain ⟨b, hb, rfl, -⟩ := (mem_kept hfits).1 hs
    exact h.slot_used hb

theorem unmarkedIn_eq_nil (hfits : sb.Fits length) (h : w.Sound sb P σ) (slots : List Nat) :
    w.unmarkedIn (w.referenced sb) slots = [] := by
  rw [unmarkedIn, List.filter_eq_nil_iff]
  intro s _ hs
  obtain ⟨hclear, hmem⟩ := of_decide_eq_true hs
  exact hclear (h.used_of_referenced hfits hmem)

/-- All that a check can report of a sound view. -/
theorem residue (hfits : sb.Fits length) (h : w.Sound sb P σ) (hvisit : ∀ l, (visit l).Perm l)
    (repair : Bool) : (w.report sb visit repair).Harmless := by
  refine ⟨h.unmarkedIn_eq_nil hfits _, slotsWhere_eq_nil h.discarded_eq_nil .invalid rfl,
    slotsWhere_eq_nil h.discarded_eq_nil .duplicate rfl, h.dangling_eq_nil,
    h.shareable.rejected_eq_nil, fun f hf => ?_⟩
  rw [report, List.mem_mergeSort, countFixes, List.mem_map] at hf
  obtain ⟨b, hb, rfl⟩ := hf
  rw [List.mem_filter, decide_eq_true_eq] at hb
  obtain ⟨hrefs, hle, -⟩ := h.actual_eq_refs hfits ((hvisit _).mem_iff.1 hb.1)
  exact Nat.lt_of_le_of_ne (Nat.le_trans (Nat.le_of_eq hrefs) hle) hb.2

/-! ### The steps of the repair -/

/-- The surplus after the count of a block was put right. -/
def settle (σ : Nat → Nat) (b : Nat) : Nat → Nat := fun x => if x = b then 0 else σ x

/-- The changes of the counts, one after the other. `actual` counts the references of each block. -/
theorem along_corrections {actual : SharedBlock → Nat} {blocks : List SharedBlock} {A : KeyMap → Prop}
    (h : u.Sound sb P σ) (hA : A (u.contents sb)) (hnodup : (blocks.map (·.index)).Nodup)
    (hblocks : ∀ b ∈ blocks, u.Held b.index ∧ u.shared b.index = w.shared b.index ∧
      actual b = u.refs sb (u.shared b.index).block) :
    u.Along (Keeps sb P fun _ M => A M)
      (blocks.map fun b => .setShared b.index (corrected (w.shared b.index) (actual b))) := by
  induction blocks generalizing u σ with
  | nil => trivial
  | cons b blocks ih =>
    rw [List.map_cons, List.nodup_cons] at hnodup
    obtain ⟨hheld, hsame, hcount⟩ := hblocks b List.mem_cons_self
    have hdone : (u.setShared b.index (corrected (w.shared b.index) (actual b))).Sound sb P
        (settle σ (u.shared b.index).block) := by
      rw [← hsame, hcount]
      refine h.correct hheld ?_ ?_ fun x hx => if_neg hx
      · rw [settle, if_pos rfl]
        rfl
      · exact Nat.le.intro (h.counted hheld).2
    refine ⟨⟨_, hdone, hA⟩, ih hdone hA hnodup.2 fun a ha => ?_⟩
    obtain ⟨hheld', hsame', hcount'⟩ := hblocks a (List.mem_cons_of_mem _ ha)
    have hne : a.index ≠ b.index := fun h => hnodup.1 (h ▸ List.mem_map_of_mem ha)
    simp only [Change.apply, Held, shared_setShared, if_neg hne]
    exact ⟨hheld', hsame', hcount'⟩

/-- The changes of the bits, one after the other. -/
theorem along_reclaims {referenced slots : List Nat} {A : KeyMap → Prop} (hfits : sb.Fits length)
    (h : u.Sound sb P σ) (hA : A (u.contents sb)) (hnodup : slots.Nodup)
    (hslots : ∀ s ∈ slots, w.used s → s ∉ referenced → u.Loose sb s)
    (hmarked : ∀ s ∈ slots, s ∈ referenced → w.used s) :
    u.Along (Keeps sb P fun _ M => A M) (slots.flatMap (w.bitChange referenced)) := by
  induction slots generalizing u with
  | nil => trivial
  | cons s slots ih =>
    rw [List.nodup_cons] at hnodup
    have hslots' : ∀ t ∈ slots, w.used t → t ∉ referenced → u.Loose sb t := fun t ht =>
      hslots t (List.mem_cons_of_mem _ ht)
    have hmarked' : ∀ t ∈ slots, t ∈ referenced → w.used t := fun t ht =>
      hmarked t (List.mem_cons_of_mem _ ht)
    rw [List.flatMap_cons, along_append, bitChange]
    by_cases hleaked : w.used s ∧ s ∉ referenced
    · have hloose := hslots s List.mem_cons_self hleaked.1 hleaked.2
      have hcontents := h.contents_setData hfits hloose .zero
      rw [if_pos hleaked]
      refine ⟨⟨⟨_, h.setData hloose .zero, hcontents ▸ hA⟩, ⟨_, h.reclaimed hloose, ?_⟩, trivial⟩,
        ih (h.reclaimed hloose) ?_ hnodup.2 (fun t ht hused hnot => ?_) hmarked'⟩
      · rw [← h.contents_reclaimed hfits hloose] at hA
        exact hA
      · rw [← h.contents_reclaimed hfits hloose] at hA
        exact hA
      · have hts : t ≠ s := by
          rintro rfl
          exact hnodup.1 ht
        exact (hslots' t ht hused hnot).reclaimed hts
    · rw [if_neg hleaked, if_neg fun hs => hs.1 (hmarked s List.mem_cons_self hs.2)]
      exact ⟨trivial, ih h hA hnodup.2 hslots' hmarked'⟩

/-- Every step of the repair leaves the view sound, and its map as it is. -/
theorem along_repairs (hfits : sb.Fits length) (hwithin : w.Within sb) (h : w.Sound sb P σ)
    (hvisit : ∀ l, (visit l).Perm l) :
    w.Along (Keeps sb P fun _ M => M = w.contents sb) (w.repairs sb visit) := by
  have hrejected := h.shareable.rejected_eq_nil
  have hshared : w.sharedRepairs sb visit =
      w.countChanges (w.pointers sb) (visit (w.accepted sb)) := by
    rw [sharedRepairs, h.dangling_eq_nil, hrejected]
    exact List.append_nil _
  have hcounts : w.Along (Keeps sb P fun _ M => M = w.contents sb)
      (w.countChanges (w.pointers sb) (visit (w.accepted sb))) := by
    refine h.along_corrections rfl ?_ fun b hb => ?_
    · exact (List.filter_sublist.map _).nodup (nodup_visited hvisit)
    · have hb := (hvisit _).mem_iff.1 (List.mem_filter.1 hb).1
      have hclaims := claims_of_mem hb
      refine ⟨hclaims.held, rfl, ?_⟩
      rw [hclaims.block_eq]
      exact (h.actual_eq_refs hfits hb).1
  rw [repairs, hshared, h.discarded_eq_nil, along_append]
  refine ⟨hcounts, ?_⟩
  obtain ⟨τ, hτ, hcontents⟩ := hcounts.last ⟨σ, h, rfl⟩
  refine hτ.along_reclaims hfits hcontents List.nodup_range (fun s hs hused hnot => ?_)
    fun s _ hs => h.used_of_referenced hfits hs
  have hfixed : (w.after (w.countChanges (w.pointers sb) (visit (w.accepted sb)))).shared =
      (w.repaired sb visit).shared := by
    rw [shared_repaired, h.dangling_eq_nil, hrejected]
    rfl
  have hkeys : (w.after (w.sharedRepairs sb visit)).keys = w.keys := keys_after_sharedRepairs
  have hbits : (w.after (w.sharedRepairs sb visit)).used = w.used := used_after_sharedRepairs
  rw [hshared] at hkeys hbits
  refine ⟨List.mem_range.1 hs, (congrFun hbits s).trans hused, fun hactive => ?_,
    fun {i} hi hblock => ?_⟩
  · rw [Active, hkeys] at hactive
    exact hnot (List.mem_append_left _ (h.mem_logical.2 hactive))
  · -- An entry that stays counts something, so its block is referenced.
    rw [Held, hfixed] at hi
    obtain ⟨b, hb, rfl, hstay⟩ := (hwithin.held_repaired hvisit).1 hi
    obtain ⟨hrefs, -, hpos⟩ := h.actual_eq_refs hfits hb
    have hcounted : w.actual sb b.block ≠ 0 := by
      rcases hstay with heq | hne
      · omega
      · exact hne
    rw [hfixed, (entry_repaired hvisit hb hstay).2.1, (claims_of_mem hb).block_of] at hblock
    refine hnot (List.mem_append_right _ (List.mem_map.2 ⟨b, ?_, Superblock.dataBlock_inj hblock⟩))
    exact List.mem_filter.2 ⟨hb, decide_eq_true hcounted⟩

end Sound

end View

end BlockStore
