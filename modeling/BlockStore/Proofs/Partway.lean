import BlockStore.Proofs.Preservation

/-!
# A repair that is cut short

A repair may stop after any of its writes, and the next one starts from what is there then. That view
is described here by what has become of the entries, the pointers and the blocks of the first view, and
the findings in it are compared with the first ones.

The key table causes no trouble: a slot whose entry has gone was to lose it. The dedup table may. Its
entries are judged in their order, each by those accepted before it. The repair frees the entries that
count nothing first and the rejected ones last, so a rejected entry can be there when the one that it
was rejected for is gone. It may then be accepted, and with it goes an entry with the same content.

## Main definitions

* `View.Partway`: what a repair that stops somewhere can leave.
* `View.Contested`: a rejected entry waits for the block of an entry that is going to be freed.

## Main results

* `View.excluded_of_rejected`: an entry is rejected on account of entries before it.
* `View.along_partway`: every write of a repair leaves such a view.
* `View.Partway.logical_eq`: the logical slots are the same ones.
* `View.Partway.dangling_subset`: unless an entry is contested, no pointer is lost that was good at first.
* `View.Partway.fetch_resumed`: values after the second repair and after the first.
-/

namespace BlockStore

namespace View

variable {w x : View} {sb : Superblock} {length : Nat} {visit visit' : List SharedBlock → List SharedBlock}
  {s i : Nat} {b e : SharedBlock}

/-! ### The order of the dedup table -/

theorem Excluded.mono {blocks blocks' : List SharedBlock} (h : w.Excluded sb blocks i)
    (hsub : ∀ b ∈ blocks, b ∈ blocks') : w.Excluded sb blocks' i :=
  h.imp_right fun ⟨b, hb, heq⟩ => ⟨b, hsub b hb, heq⟩

/-- What has been accepted stays accepted. -/
theorem mem_acceptEntries {logical : List Nat} {acc : List SharedBlock} (hb : b ∈ acc)
    (entries : List (Nat × DedupEntry)) : b ∈ (acceptEntries sb logical acc entries).1 := by
  induction entries generalizing acc with
  | nil => exact hb
  | cons entry entries ih =>
    rw [acceptEntries]
    split
    · split
      · exact ih (List.mem_append_left _ hb)
      · exact ih hb
    · exact ih hb

/-- Going through the entries in order, an entry is rejected on account of entries before it. -/
theorem excluded_acceptEntries {acc : List SharedBlock} {indices : List Nat}
    (hlt : ∀ j ∈ indices, j < sb.dedupCapacity) (hsorted : indices.Pairwise (· < ·))
    (hacc : ∀ b ∈ acc, ∀ j ∈ indices, b.index < j)
    (hi : i ∈ (acceptEntries sb (w.logical sb) acc (indices.map fun j => (j, w.shared j))).2) :
    w.Excluded sb ((acceptEntries sb (w.logical sb) acc
      (indices.map fun j => (j, w.shared j))).1.filter fun b => decide (b.index < i)) i := by
  induction indices generalizing acc with
  | nil => exact absurd hi List.not_mem_nil
  | cons k indices ih =>
    rw [List.pairwise_cons] at hsorted
    have hlt' : ∀ j ∈ indices, j < sb.dedupCapacity := fun j hj => hlt j (List.mem_cons_of_mem _ hj)
    have hacc' : ∀ b ∈ acc, ∀ j ∈ indices, b.index < j := fun b hb j hj =>
      hacc b hb j (List.mem_cons_of_mem _ hj)
    rw [List.map_cons, acceptEntries] at hi ⊢
    by_cases hheld : w.Held k
    · rw [if_pos (show (w.shared k).isActive = true from hheld)] at hi ⊢
      rcases accept?_cases acc (hlt k List.mem_cons_self) hheld with
        ⟨b, hsome, -, rfl, -⟩ | ⟨hnone, hexcluded⟩
      · rw [hsome] at hi ⊢
        refine ih hlt' hsorted.2 ?_ hi
        intro a ha j hj
        rcases List.mem_append.1 ha with ha | ha
        · exact hacc' a ha j hj
        · rw [List.mem_singleton.1 ha]
          exact hsorted.1 j hj
      · rw [hnone] at hi ⊢
        rcases List.mem_cons.1 hi with rfl | hi
        · refine hexcluded.mono ?_
          intro a ha
          rw [List.mem_filter, decide_eq_true_eq]
          exact ⟨mem_acceptEntries ha _, hacc a ha _ List.mem_cons_self⟩
        · exact ih hlt' hsorted.2 hacc' hi
    · rw [if_neg (show ¬ (w.shared k).isActive = true from hheld)] at hi ⊢
      exact ih hlt' hsorted.2 hacc' hi

/-- A dedup entry is rejected on account of entries before it. -/
theorem excluded_of_rejected (hi : i ∈ w.rejected sb) :
    w.Excluded sb ((w.accepted sb).filter fun b => decide (b.index < i)) i :=
  excluded_acceptEntries (fun _ hj => List.mem_range.1 hj) List.pairwise_lt_range (by simp) hi

/-- An entry with a block is accepted or rejected. -/
theorem accepted_or_rejected (hi : i < sb.dedupCapacity) (hheld : w.Held i) :
    (∃ b ∈ w.accepted sb, b.index = i) ∨ i ∈ w.rejected sb := by
  by_cases h : ∃ b ∈ w.accepted sb, b.index = i
  · exact .inl h
  · exact .inr (mem_rejected.2 ⟨hi, hheld, fun b hb hindex => h ⟨b, hb, hindex⟩⟩)

/-- An entry with a good place is rejected for the block or the content of one accepted before it. -/
theorem exists_before (hi : i ∈ w.rejected sb) (hs : s < sb.slots)
    (hblock : (w.shared i).block = sb.dataBlock s) (hhome : s ∉ w.logical sb) :
    ∃ e ∈ w.accepted sb, e.index < i ∧ (e.block = (w.shared i).block ∨ e.content = (w.shared i).key) := by
  rcases excluded_of_rejected hi with hplace | ⟨e, he, heq⟩
  · exact absurd (hplace s hs hblock) hhome
  · rw [List.mem_filter, decide_eq_true_eq] at he
    exact ⟨e, he.1, he.2, heq⟩

/-- A logical slot points at an accepted block only if its entry stays. -/
theorem stays_of_pointer (hfits : sb.Fits length) (hb : b ∈ w.accepted sb) (hs : s ∈ w.logical sb)
    (hp : w.pointer s = b.block) : w.Stays sb b :=
  .inr ((actual_ne_zero_iff hfits hb).2 ⟨s, hs, hp⟩)

/-! ### What is left where a repair stops -/

/-- What a repair of `w` that stops somewhere can leave. -/
structure Partway (w : View) (sb : Superblock) (x : View) : Prop where
  /-- Only entries that have to go have gone. -/
  keys : ∀ s, x.keys s = w.keys s ∨ s ∈ w.discarded sb ∧ x.keys s = .free
  /-- A dedup entry says what it said, up to its count. -/
  shared : ∀ {i}, x.Held i → w.Held i ∧ (x.shared i).block = (w.shared i).block ∧
    (x.shared i).key = (w.shared i).key
  /-- The accepted entries that stay are still there. -/
  stays : ∀ b ∈ w.accepted sb, w.Stays sb b → x.Held b.index
  data : ∀ s ∈ w.referenced sb, s ∉ w.dangling sb → x.data s = w.data s
  /-- A dangling pointer has been cleared, or the dedup table has not been written to yet. -/
  dangling : ∀ s ∈ w.dangling sb, x.data s = .zero ∨ x.data s = w.data s ∧ x.shared = w.shared

/-- The repair is partway, and all dangling pointers have been cleared. -/
def Cleared (w : View) (sb : Superblock) (x : View) : Prop :=
  w.Partway sb x ∧ ∀ s ∈ w.dangling sb, x.data s = .zero

theorem partway_self (w : View) (sb : Superblock) : w.Partway sb w where
  keys _ := .inl rfl
  shared h := ⟨h, rfl, rfl⟩
  stays _ hb _ := (claims_of_mem hb).held
  data _ _ _ := rfl
  dangling _ _ := .inr ⟨rfl, rfl⟩

theorem Partway.zeroData (h : w.Partway sb x) (hshared : x.shared = w.shared) (hs : s ∈ w.dangling sb) :
    w.Partway sb (x.setData s .zero) where
  keys := h.keys
  shared := h.shared
  stays := h.stays
  data t ht hkept := by
    have hts : t ≠ s := by
      rintro rfl
      exact hkept hs
    rw [data_setData, if_neg hts]
    exact h.data t ht hkept
  dangling t ht := by
    rw [data_setData]
    by_cases hts : t = s
    · exact .inl (if_pos hts)
    · rw [if_neg hts]
      exact (h.dangling t ht).imp_right fun hsame => ⟨hsame.1, hshared⟩

namespace Cleared

/-- A slot that is not referenced may lose its block. -/
theorem zeroData (h : w.Cleared sb x) (hs : s ∉ w.referenced sb) : w.Cleared sb (x.setData s .zero) := by
  have hzero : ∀ t ∈ w.dangling sb, (x.setData s .zero).data t = .zero := fun t ht => by
    rw [data_setData, h.2 t ht, ite_self]
  refine ⟨⟨h.1.keys, h.1.shared, h.1.stays, fun t ht hkept => ?_, fun t ht => .inl (hzero t ht)⟩, hzero⟩
  have hts : t ≠ s := by
    rintro rfl
    exact hs ht
  rw [data_setData, if_neg hts]
  exact h.1.data t ht hkept

theorem setUsed (h : w.Cleared sb x) (s : Nat) (used : Bool) : w.Cleared sb (x.setUsed s used) :=
  ⟨⟨h.1.keys, h.1.shared, h.1.stays, h.1.data, fun t ht => .inl (h.2 t ht)⟩, h.2⟩

theorem freeKey (h : w.Cleared sb x) (hs : s ∈ w.discarded sb) : w.Cleared sb (x.setKey s .free) := by
  refine ⟨⟨fun t => ?_, h.1.shared, h.1.stays, h.1.data, fun t ht => .inl (h.2 t ht)⟩, h.2⟩
  rw [keys_setKey]
  by_cases hts : t = s
  · rw [if_pos hts]
    exact .inr ⟨hts ▸ hs, rfl⟩
  · rw [if_neg hts]
    exact h.1.keys t

/-- A dedup entry may be replaced by one that says the same up to its count, and freed if it does not
stay. -/
theorem setShared (h : w.Cleared sb x) {d : DedupEntry}
    (hd : d.isActive → w.Held i ∧ d.block = (w.shared i).block ∧ d.key = (w.shared i).key)
    (hstays : ∀ b ∈ w.accepted sb, b.index = i → w.Stays sb b → d.isActive) :
    w.Cleared sb (x.setShared i d) := by
  refine ⟨⟨h.1.keys, fun {j} hj => ?_, fun b hb hstay => ?_, h.1.data, fun t ht => .inl (h.2 t ht)⟩, h.2⟩
  · rw [Held, shared_setShared] at hj
    rw [shared_setShared]
    split at hj
    · rename_i hji
      rw [if_pos hji, hji]
      exact hd hj
    · rename_i hji
      rw [if_neg hji]
      exact h.1.shared hj
  · rw [Held, shared_setShared]
    split
    · rename_i hbi
      exact hstays b hb hbi hstay
    · exact h.1.stays b hb hstay

/-- The count of an accepted entry is put right. -/
theorem correct (h : w.Cleared sb x) (hb : b ∈ w.accepted sb) (hcount : w.actual sb b.block ≠ b.recorded) :
    w.Cleared sb (x.setShared b.index (corrected (w.shared b.index) (w.actual sb b.block))) := by
  have hfree : DedupEntry.free.isActive = false := by decide
  have hheld := (claims_of_mem hb).held
  refine h.setShared (fun hactive => ?_) fun a ha hindex hstay => ?_
  · rw [corrected] at hactive ⊢
    split at hactive
    · rw [hfree] at hactive
      cases hactive
    · rename_i hpos
      rw [if_neg hpos]
      exact ⟨hheld, rfl, rfl⟩
  · obtain rfl : a = b := (eq_or_apart ha hb).resolve_right fun hne => hne.index hindex
    rw [corrected, if_neg (hstay.resolve_left hcount)]
    exact hheld

/-- A rejected entry is freed. -/
theorem freeShared (h : w.Cleared sb x) (hi : i ∈ w.rejected sb) : w.Cleared sb (x.setShared i .free) := by
  have hfree : DedupEntry.free.isActive = false := by decide
  refine h.setShared (fun hactive => ?_) fun b hb hindex _ => ?_
  · rw [hfree] at hactive
    cases hactive
  · exact absurd hindex ((mem_rejected.1 hi).2.2 b hb)

end Cleared

/-- Once the dangling pointers have been cleared, each change of a repair leaves a view partway. -/
theorem Cleared.apply (hvisit : ∀ l, (visit l).Perm l) (h : w.Cleared sb x) {c : Change}
    (hc : c ∈ (w.countChanges (w.pointers sb) (visit (w.accepted sb)) ++
        (w.rejected sb).map (.setShared · .free)) ++
      (discardChanges (w.referenced sb) (w.discarded sb) ++
        (List.range sb.slots).flatMap (w.bitChange (w.referenced sb)))) :
    w.Cleared sb (c.apply x) := by
  rcases List.mem_append.1 hc with hc | hc
  · rcases List.mem_append.1 hc with hc | hc
    · obtain ⟨b, hb, rfl⟩ := List.mem_map.1 hc
      rw [List.mem_filter, decide_eq_true_eq] at hb
      exact h.correct ((hvisit _).mem_iff.1 hb.1) hb.2
    · obtain ⟨i, hi, rfl⟩ := List.mem_map.1 hc
      exact h.freeShared hi
  · rcases List.mem_append.1 hc with hc | hc
    · obtain ⟨s, hs, rfl | ⟨hno, rfl⟩⟩ := mem_discardChanges.1 hc
      · exact h.freeKey hs
      · exact h.zeroData hno
    · obtain ⟨s, -, hc⟩ := List.mem_flatMap.1 hc
      rcases mem_bitChange.1 hc with ⟨-, hno, rfl | rfl⟩ | ⟨-, -, rfl⟩
      · exact h.zeroData hno
      · exact h.setUsed s false
      · exact h.setUsed s true

theorem Along.mono {C D : View → Prop} {plan : List Change} (h : w.Along C plan) (hCD : ∀ x, C x → D x) :
    w.Along D plan := by
  induction plan generalizing w with
  | nil => trivial
  | cons c cs ih => exact ⟨hCD _ h.1, ih h.2⟩

/-- Every write of a repair leaves a view that is partway. -/
theorem along_partway (w : View) (sb : Superblock) (hvisit : ∀ l, (visit l).Perm l) :
    w.Along (w.Partway sb) (w.repairs sb visit) := by
  have hpointers : w.Along (fun x => w.Partway sb x ∧ x.shared = w.shared)
      ((w.dangling sb).map .zeroData) := by
    refine .of_step ⟨w.partway_self sb, rfl⟩ ?_
    intro c hc x hx
    obtain ⟨s, hs, rfl⟩ := List.mem_map.1 hc
    exact ⟨hx.1.zeroData hx.2 hs, hx.2⟩
  have hcleared : w.Cleared sb (w.after ((w.dangling sb).map .zeroData)) := by
    refine ⟨(hpointers.last ⟨w.partway_self sb, rfl⟩).1, fun s hs => ?_⟩
    rw [data_after_zeroData, if_pos hs]
  rw [repairs, sharedRepairs, List.append_assoc, along_append]
  exact ⟨hpointers.mono fun _ hx => hx.1,
    (Along.of_step hcleared fun _ hc _ hx => hx.apply hvisit hc).mono fun _ hx => hx.1⟩

/-! ### What is found there -/

/-- A rejected entry has the block of an accepted entry before it that is going to be freed, and the
content of an accepted entry behind it. -/
def Contested (w : View) (sb : Superblock) : Prop :=
  ∃ a ∈ w.accepted sb, ¬ w.Stays sb a ∧ ∃ i ∈ w.rejected sb, a.index < i ∧
    (w.shared i).block = a.block ∧
      ∃ c ∈ w.accepted sb, i < c.index ∧ c.content = (w.shared i).key

/-- An active slot has the key of a first one, which is no higher. -/
theorem exists_first (hlt : s < sb.slots) (hs : w.Active s) :
    ∃ t ≤ s, w.First t ∧ (w.keys t).key = (w.keys s).key := by
  cases hslot : w.slotOf sb (w.keys s).key with
  | none => exact absurd ⟨hs, rfl⟩ (slotOf_eq_none_iff.1 hslot s hlt)
  | some t =>
    obtain ⟨hlogical, hkey⟩ := slotOf_eq_some_iff.1 hslot
    have hfirst := (mem_logical.1 hlogical).2
    exact ⟨t, Nat.le_of_not_lt fun h => hfirst.2 s h hs hkey.symm, hfirst, hkey⟩

namespace Partway

theorem keys_of_first (h : w.Partway sb x) (hs : w.First s) : x.keys s = w.keys s :=
  (h.keys s).resolve_right fun hgone => hs.not_discarded hgone.1

theorem keys_of_active (h : w.Partway sb x) (hs : x.Active s) : x.keys s = w.keys s := by
  have hfree : KeyEntry.free.isActive = false := by decide
  refine (h.keys s).resolve_right ?_
  rintro ⟨-, hgone⟩
  rw [Active, hgone, hfree] at hs
  cases hs

theorem active_of_active (h : w.Partway sb x) (hs : x.Active s) : w.Active s := by
  rw [Active, ← h.keys_of_active hs]
  exact hs

/-- The first slots of the keys are the same ones. -/
theorem first_iff (h : w.Partway sb x) (hs : s < sb.slots) : x.First s ↔ w.First s := by
  constructor
  · rintro ⟨hactive, hbelow⟩
    refine ⟨h.active_of_active hactive, fun t hts ht hkey => ?_⟩
    -- The first slot with the key of `t` has kept its entry.
    obtain ⟨t', hle, hfirst, hkey'⟩ := exists_first (Nat.lt_trans hts hs) ht
    have hsame := h.keys_of_first hfirst
    have hactive' : x.Active t' := by
      rw [Active, hsame]
      exact hfirst.1
    refine hbelow t' (Nat.lt_of_le_of_lt hle hts) hactive' ?_
    rw [hsame, h.keys_of_active hactive, hkey', hkey]
  · intro hfirst
    have hsame := h.keys_of_first hfirst
    refine ⟨by rw [Active, hsame]; exact hfirst.1, fun t hts ht hkey => ?_⟩
    rw [h.keys_of_active ht, hsame] at hkey
    exact hfirst.2 t hts (h.active_of_active ht) hkey

/-- So the logical slots are the same ones, with the same entries. -/
theorem logical_eq (h : w.Partway sb x) : x.logical sb = w.logical sb := by
  rw [logical_eq_filter, logical_eq_filter]
  refine List.filter_congr ?_
  intro s hs
  rw [decide_eq_decide, h.first_iff (List.mem_range.1 hs)]

/-- The block of an accepted entry is that of a slot that was not logical at first. -/
theorem home (h : w.Partway sb x) (he : e ∈ x.accepted sb) : e.slot ∉ w.logical sb :=
  h.logical_eq ▸ (claims_of_mem he).not_logical

/-- An accepted entry was there at first, with the same block and content. -/
theorem claimed (h : w.Partway sb x) (he : e ∈ x.accepted sb) :
    w.Held e.index ∧ (w.shared e.index).block = e.block ∧ (w.shared e.index).key = e.content := by
  have hclaims := claims_of_mem he
  obtain ⟨hheld, hblock, hkey⟩ := h.shared hclaims.held
  exact ⟨hheld, hblock.symm.trans hclaims.block_eq, hkey.symm.trans hclaims.content_eq⟩

/-- An accepted entry that has the content of a later one of the first accepted entries was rejected at
first, for its block. -/
theorem rejected_at_first (h : w.Partway sb x) (he : e ∈ x.accepted sb) (hb : b ∈ w.accepted sb)
    (hlt : e.index < b.index) (hcontent : e.content = b.content) :
    e.index ∈ w.rejected sb ∧ ∃ a ∈ w.accepted sb, a.index < e.index ∧ a.block = e.block := by
  have hclaims := claims_of_mem he
  obtain ⟨hheld, hblock, hkey⟩ := h.claimed he
  have hrejected : e.index ∈ w.rejected sb := by
    refine (accepted_or_rejected hclaims.index_lt hheld).resolve_left ?_
    rintro ⟨a, ha, hindex⟩
    have hsame : a.content = b.content := by
      rw [← (claims_of_mem ha).content_eq, hindex, hkey, hcontent]
    obtain rfl := (eq_or_apart ha hb).resolve_right fun hne => hne.content hsame
    omega
  obtain ⟨a, ha, hbefore, hsame⟩ :=
    exists_before hrejected hclaims.slot_lt (hblock.trans hclaims.block_of) (h.home he)
  rw [hblock, hkey] at hsame
  rcases hsame with hsame | hsame
  · exact ⟨hrejected, a, ha, hbefore, hsame⟩
  · obtain rfl := (eq_or_apart ha hb).resolve_right fun hne => hne.content (hsame.trans hcontent)
    omega

/-- An entry that was accepted at first and is still there is accepted again, or one before it is
accepted for its block. -/
theorem exists_accepted (h : w.Partway sb x) (hfree : ¬ w.Contested sb) (hb : b ∈ w.accepted sb)
    (hheld : x.Held b.index) : ∃ e ∈ x.accepted sb, e.index ≤ b.index ∧ e.block = b.block := by
  obtain ⟨n, hn⟩ : ∃ n, n = b.index := ⟨_, rfl⟩
  induction n using Nat.strongRecOn generalizing b with
  | ind n ih =>
    subst hn
    have hclaims := claims_of_mem hb
    obtain ⟨-, hblock, hkey⟩ := h.shared hheld
    rw [hclaims.block_eq] at hblock
    rw [hclaims.content_eq] at hkey
    rcases accepted_or_rejected hclaims.index_lt hheld with ⟨e, he, hindex⟩ | hrejected
    · refine ⟨e, he, Nat.le_of_eq hindex, ?_⟩
      rw [← (claims_of_mem he).block_eq, hindex, hblock]
    · obtain ⟨e, he, hlt, hsame⟩ := exists_before hrejected hclaims.slot_lt
        (hblock.trans hclaims.block_of) (h.logical_eq ▸ hclaims.not_logical)
      rw [hblock, hkey] at hsame
      rcases hsame with hsame | hsame
      · exact ⟨e, he, Nat.le_of_lt hlt, hsame⟩
      · -- `e` has taken the content of `b`, so an entry `a` must be gone that had the block of `e`.
        obtain ⟨hrejected', a, ha, hbefore, hablock⟩ := h.rejected_at_first he hb hlt hsame
        have hgone : ¬ x.Held a.index := fun ha' => by
          obtain ⟨e', he', hle, heq⟩ := ih a.index (Nat.lt_trans hbefore hlt) ha ha' rfl
          obtain rfl := (eq_or_apart he' he).resolve_right fun hne => hne.block (heq.trans hablock)
          omega
        obtain ⟨-, hblock', hkey'⟩ := h.claimed he
        exact absurd ⟨a, ha, fun hstay => hgone (h.stays a ha hstay), e.index, hrejected', hbefore,
          hblock'.trans hablock.symm, b, hb, hlt, hsame.symm.trans hkey'.symm⟩ hfree

/-! ### Values -/

theorem pointer_eq (h : w.Partway sb x) (hs : s ∈ w.logical sb) (hkept : s ∉ w.dangling sb) :
    x.pointer s = w.pointer s := by
  rw [pointer, pointer, h.data s (List.mem_append_left _ hs) hkept]

/-- A pointer of a logical slot that does not dangle is zero or leads to a block that stays. -/
theorem exists_target (hfits : sb.Fits length) (hd : sb.isDedup) (hs : s ∈ w.logical sb)
    (hkept : s ∉ w.dangling sb) (hne : w.pointer s ≠ 0) :
    ∃ b ∈ w.accepted sb, w.pointer s = b.block ∧ w.Stays sb b := by
  obtain ⟨b, hb, hblock⟩ := exists_block_of_not_dangling hd hs hkept hne
  exact ⟨b, hb, hblock.symm, stays_of_pointer hfits hb hs hblock.symm⟩

/-- **A second check loses no more than the first**, unless an entry is contested. -/
theorem dangling_subset (h : w.Partway sb x) (hfits : sb.Fits length) (hfree : ¬ w.Contested sb) :
    x.dangling sb ⊆ w.dangling sb := by
  intro s hs
  obtain ⟨hd, hlogical, hne, hno⟩ := mem_dangling.1 hs
  rw [h.logical_eq] at hlogical
  refine Classical.byContradiction fun hkept => ?_
  rw [h.pointer_eq hlogical hkept] at hne hno
  obtain ⟨b, hb, hblock, hstay⟩ := exists_target hfits hd hlogical hkept hne
  obtain ⟨e, he, -, heq⟩ := h.exists_accepted hfree hb (h.stays b hb hstay)
  exact hno (List.mem_map.2 ⟨e, he, heq.trans hblock.symm⟩)

/-- The value of a logical slot whose pointer did not dangle. -/
theorem fetch_eq (h : w.Partway sb x) (hfits : sb.Fits length) (hs : s ∈ w.logical sb)
    (hkept : s ∉ w.dangling sb) : x.fetch sb s = w.fetch sb s := by
  by_cases hd : sb.isDedup
  · have hpointer := h.pointer_eq hs hkept
    by_cases hzero : w.pointer s = 0
    · rw [fetch_of_pointer_eq_zero hd hzero, fetch_of_pointer_eq_zero hd (hpointer.trans hzero)]
    · obtain ⟨b, hb, hblock, -⟩ := exists_target hfits hd hs hkept hzero
      have hclaims := claims_of_mem hb
      have hmem : b.slot ∈ w.referenced sb :=
        List.mem_append_right _ ((mem_kept hfits).2 ⟨b, hb, rfl, s, hs, hblock⟩)
      have htarget := hblock.trans hclaims.block_of
      rw [fetch_of_pointer_eq hd hfits hclaims.slot_lt htarget,
        fetch_of_pointer_eq hd hfits hclaims.slot_lt (hpointer.trans htarget),
        h.data b.slot hmem hclaims.not_dangling]
  · rw [fetch_of_plain hd, fetch_of_plain hd, h.data s (List.mem_append_left _ hs) hkept]

/-- A value that was lost at first is lost. -/
theorem fetch_repaired_of_dangling (h : w.Partway sb x) (hfits : sb.Fits length) (hs : s ∈ w.dangling sb) :
    (x.repaired sb visit).fetch sb s = .ok .zero := by
  obtain ⟨hd, hlogical, hne, hno⟩ := mem_dangling.1 hs
  have hlogical' : s ∈ x.logical sb := h.logical_eq ▸ hlogical
  rcases h.dangling s hs with hzero | ⟨hdata, hshared⟩
  · have hpointer : x.pointer s = 0 := by
      rw [pointer, hzero]
      exact Volume.pointer_zero
    have hkept : s ∉ x.dangling sb := fun hmem => (mem_dangling.1 hmem).2.2.1 hpointer
    rw [fetch_repaired_of_not_mem hfits hlogical' hkept, fetch_of_pointer_eq_zero hd hpointer]
  · have hpointer : x.pointer s = w.pointer s := by rw [pointer, pointer, hdata]
    have hblocks : x.sharedBlocks sb = w.sharedBlocks sb := by
      rw [sharedBlocks, sharedBlocks, accepted, accepted, h.logical_eq, Superblock.sharedEntries,
        Superblock.sharedEntries, hshared]
    refine fetch_repaired_of_mem hfits ?_
    rw [mem_dangling, hpointer, hblocks]
    exact ⟨hd, hlogical', hne, hno⟩

/-- The value of a logical slot after the second repair is the one after the first, unless the pointer
to it has been lost in between. -/
theorem fetch_resumed (h : w.Partway sb x) (hfits : sb.Fits length) (hs : s ∈ w.logical sb)
    (hkept : s ∈ x.dangling sb → s ∈ w.dangling sb) :
    (x.repaired sb visit').fetch sb s = (w.repaired sb visit).fetch sb s := by
  by_cases hdangling : s ∈ w.dangling sb
  · rw [fetch_repaired_of_mem hfits hdangling, h.fetch_repaired_of_dangling hfits hdangling]
  · rw [fetch_repaired_of_not_mem hfits hs hdangling,
      fetch_repaired_of_not_mem hfits (h.logical_eq ▸ hs) fun hmem => hdangling (hkept hmem),
      h.fetch_eq hfits hs hdangling]

end Partway

end View

end BlockStore
