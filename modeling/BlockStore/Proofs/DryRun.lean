import BlockStore.Proofs.Consistency

/-!
# A check without repair

A check that is not asked to repair looks and does nothing else. What it reports is what the repair of
the same volume would report, although the repair writes while it is still looking: both reports are
read off the view that the check starts from. Only the order in which reference counts are compared is
left open, and the findings about them are sorted.

## Main results

* `View.report_eq`: the report depends on `repair` in its last field only, and on the order not at all.
* `Volume.Trail.idle`: without a write nothing of the volume changes.
* `Volume.check_predicts_repair`: the check of any image, with and without repair.
-/

namespace BlockStore

namespace View

variable {w : View} {sb : Superblock} {visit visit' : List SharedBlock → List SharedBlock}

/-- Two findings about one entry are the same finding. -/
theorem countFixes_inj {pointers : List Nat} {f g : RefcountFix}
    (hf : f ∈ countFixes pointers (w.accepted sb)) (hg : g ∈ countFixes pointers (w.accepted sb))
    (h : f.index = g.index) : f = g := by
  obtain ⟨a, ha, rfl⟩ := List.mem_map.1 hf
  obtain ⟨b, hb, rfl⟩ := List.mem_map.1 hg
  have hab : a = b :=
    (eq_or_apart (List.mem_filter.1 ha).1 (List.mem_filter.1 hb).1).resolve_right fun hne => hne.index h
  rw [hab]

/-- The findings about reference counts, in whatever order the blocks were visited. -/
theorem perm_countFixes (hvisit : ∀ l, (visit l).Perm l) (pointers : List Nat) :
    (countFixes pointers (visit (w.accepted sb))).Perm (countFixes pointers (w.accepted sb)) :=
  ((hvisit _).filter _).map _

theorem refcountFixes_report (hvisit : ∀ l, (visit l).Perm l) (hvisit' : ∀ l, (visit' l).Perm l)
    (repair repair' : Bool) :
    (w.report sb visit repair).refcountFixes = (w.report sb visit' repair').refcountFixes := by
  have hperm {visit : List SharedBlock → List SharedBlock} (hvisit : ∀ l, (visit l).Perm l) :
      (w.report sb visit repair).refcountFixes.Perm (countFixes (w.pointers sb) (w.accepted sb)) :=
    (List.mergeSort_perm _ _).trans (perm_countFixes hvisit _)
  have hsorted (visit : List SharedBlock → List SharedBlock) :
      (w.report sb visit repair).refcountFixes.Pairwise fun f g => f.index ≤ g.index := by
    refine (List.pairwise_mergeSort ?_ ?_ _).imp of_decide_eq_true
    · intro f g h hfg hgh
      exact decide_eq_true (Nat.le_trans (of_decide_eq_true hfg) (of_decide_eq_true hgh))
    · intro f g
      rw [Bool.or_eq_true, decide_eq_true_eq, decide_eq_true_eq]
      exact Nat.le_total _ _
  show (w.report sb visit repair).refcountFixes = (w.report sb visit' repair).refcountFixes
  refine List.Perm.eq_of_pairwise ?_ (hsorted visit) (hsorted visit')
    ((hperm hvisit).trans (hperm hvisit').symm)
  intro f g hf hg hfg hgf
  exact countFixes_inj ((hperm hvisit).mem_iff.1 hf) ((hperm hvisit').mem_iff.1 hg)
    (Nat.le_antisymm hfg hgf)

/-- What is reported does not depend on the order in which reference counts are compared, nor on
whether it is repaired. -/
theorem report_eq (hvisit : ∀ l, (visit l).Perm l) (hvisit' : ∀ l, (visit' l).Perm l)
    (repair repair' : Bool) :
    w.report sb visit repair = { w.report sb visit' repair' with repaired := repair } := by
  have hfixes : (w.report sb visit repair).refcountFixes = (w.report sb visit' repair').refcountFixes :=
    refcountFixes_report hvisit hvisit' repair repair'
  rw [report, report] at hfixes ⊢
  simpa only [CheckReport.mk.injEq, true_and, and_true] using hfixes

end View

namespace Volume

variable {sb : Superblock} {r : Prop} {v u : Volume} {w : View} {free : List Nat} {d : Device}
  {visit visit' : List SharedBlock → List SharedBlock}

/-- On a trail on which no write is allowed, nothing changes but the number of transfers. -/
theorem Trail.idle {I : Volume → Prop} (hI : ∀ u, ¬ I u) (h : Trail I v u) :
    u.superblock = v.superblock ∧ u.allocator = v.allocator ∧ u.device.image = v.device.image := by
  induction h with
  | refl => exact ⟨rfl, rfl, rfl⟩
  | tick _ ih => exact ih
  | write _ _ _ _ hw _ => exact absurd hw (hI _)

/-- A check without repair reports what the view says, and leaves everything alone. -/
theorem Shows.check_false (h : v.Shows sb r w free) (hr : r) (hvisit : ∀ l, (visit l).Perm l) :
    ∃ u, checkVisiting visit false v = .ok (w.report sb visit false) u ∧ v.writesSince u = [] ∧
      u.allocator = v.allocator ∧ u.device.image = v.device.image := by
  obtain ⟨u, -, hrun, htrail, -⟩ := h.check_eq hr hvisit false (C := fun _ => False) trivial
  have hnone : ∀ u, ¬ Passes sb r (fun _ => False) u := by
    rintro u ⟨_, _, _, hfalse⟩
    exact hfalse
  obtain ⟨-, hallocator, himage⟩ := htrail.idle hnone
  exact ⟨u, hrun, htrail.writesSince_eq_nil hnone, hallocator, himage⟩

/-- **A check without repair predicts the repair.** Whatever a device holds behind a superblock that fits,
a check of the mounted volume without repair succeeds, writes nothing and leaves the bitmap and the free
list as they are. A repair of the same volume succeeds too and reports the same findings in the same order,
whatever the orders are in which the two compare reference counts. -/
theorem check_predicts_repair (hr : d.Reliable) (hread : Superblock.read d = .ok sb)
    (hvisit : ∀ l, (visit l).Perm l) (hvisit' : ∀ l, (visit' l).Perm l) :
    ∃ v found u report t, mount false d = .ok v d ∧
      checkVisiting visit false v = .ok found u ∧
      v.writesSince u = [] ∧ u.device.image = d.image ∧
      u.allocator.bitmap = v.allocator.bitmap ∧ u.allocator.free = v.allocator.free ∧
      checkVisiting visit' true v = .ok report t ∧
      found = { report with repaired := false } ∧ report.repaired = true := by
  obtain ⟨hstored, hfits⟩ := Superblock.of_read hread
  rcases attach_cases hstored hfits with ⟨v, hattach, rfl, hv⟩ | ⟨-, hr'⟩
  · have hmount : mount false v.device = .ok v v.device := by simp [mount, mountVisiting, hattach]
    obtain ⟨u, hfound, hwrites, hallocator, himage⟩ := hv.check_false hr hvisit
    obtain ⟨t, -, hrepair, -⟩ := hv.check_eq hr hvisit' true (View.along_true _ _)
    exact ⟨v, _, u, _, t, hmount, hfound, hwrites, himage, by rw [hallocator], by rw [hallocator],
      hrepair, View.report_eq hvisit hvisit' false true, rfl⟩
  · exact absurd hr hr'

/-- Of a deduplicating volume with two slots only the superblock is there: both slots have an entry that
is not valid, and the check says so. -/
theorem check_predicts_repair_bare :
    (bareDevice ⟨2, true, by decide, by decide⟩).Reliable ∧
      ∃ v found u report t, mount false (bareDevice ⟨2, true, by decide, by decide⟩) =
          .ok v (bareDevice ⟨2, true, by decide, by decide⟩) ∧
        checkVisiting id false v = .ok found u ∧ v.writesSince u = [] ∧
        checkVisiting List.reverse true v = .ok report t ∧ found = { report with repaired := false } := by
  have hr : (bareDevice ⟨2, true, by decide, by decide⟩).Reliable := Device.reliable_ofImage _
  have hid : ∀ l : List SharedBlock, (id l).Perm l := fun l => .refl l
  obtain ⟨v, found, u, report, t, hmount, hfound, hwrites, -, -, -, hrepair, heq, -⟩ :=
    check_predicts_repair hr (read_bareDevice _) hid List.reverse_perm
  exact ⟨hr, v, found, u, report, t, hmount, hfound, hwrites, hrepair, heq⟩

end Volume

end BlockStore
