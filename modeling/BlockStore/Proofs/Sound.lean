import BlockStore.Proofs.Lookup

/-!
# Volumes without damage

What holds of a volume between any two writes: nothing that is referenced is free, and nothing that is
free is referenced. A crash or a failed transfer leaves the volume like that, with no more harm done
than slots that nobody uses and reference counts that are too high.

How far a count is too high is kept track of: `σ` is the surplus of each block. A step that drops a
pointer raises it and the step that lowers the count brings it down again, so an operation that runs
to its end gives back the surplus that it found.

The changes come one at a time, as the writes do. Each lemma below says what one of them needs in
order to leave the volume sound.

## Main definitions

* `View.Active`, `View.Held`: a slot with a key, and a dedup entry with a block.
* `View.refs`: the number of pointers to a block.
* `View.Sound`: the invariant.
* `View.Loose`: a slot in use that nothing references, which is what may be written to freely.

## Main results

* `View.Sound.use`, `release`, `setData`, `activate`, `rekey`, `freeKey`, `setValue`, `setPointer`,
  `enter`, `recount`, `freeShared`, `correct`: the changes that keep a volume sound.
-/

namespace BlockStore

namespace View

/-- The slot holds a key. -/
def Active (w : View) (s : Nat) : Prop := (w.keys s).isActive

/-- The dedup entry holds a block. -/
def Held (w : View) (i : Nat) : Prop := (w.shared i).isActive

instance (w : View) (s : Nat) : Decidable (w.Active s) := inferInstanceAs (Decidable (_ = true))

instance (w : View) (i : Nat) : Decidable (w.Held i) := inferInstanceAs (Decidable (_ = true))

/-- The number of slots with a key that point at a block. -/
def refs (w : View) (sb : Superblock) (b : Nat) : Nat :=
  (List.range sb.slots).countP fun s => decide (w.Active s ∧ w.pointer s = b)

/-- One more at a block. -/
def bump (σ : Nat → Nat) (b : Nat) : Nat → Nat := fun x => if x = b then σ x + 1 else σ x

@[simp] theorem bump_self (σ : Nat → Nat) (b : Nat) : bump σ b b = σ b + 1 := if_pos rfl

theorem bump_of_ne (σ : Nat → Nat) {b x : Nat} (h : x ≠ b) : bump σ b x = σ x := if_neg h

/-- The volume has no damage, its reference counts are too high by `σ`, and every shared block
satisfies `P`. -/
structure Sound (sb : Superblock) (P : Block → Prop) (σ : Nat → Nat) (w : View) : Prop where
  active_lt : ∀ {s}, w.Active s → s < sb.slots
  held_lt : ∀ {i}, w.Held i → i < sb.dedupCapacity
  /-- No key is in two slots. -/
  unique : ∀ {s t}, w.Active s → w.Active t → (w.keys s).key = (w.keys t).key → s = t
  /-- A slot without a key has the free entry. -/
  vacant : ∀ {s}, ¬ w.Active s → w.keys s = .free
  used_of_active : ∀ {s}, w.Active s → w.used s
  /-- A slot that is not in use has a block of zeros. -/
  blank : ∀ {s}, w.used s = false → w.data s = .zero
  /-- A shared block is the block of a slot that is in use and has no key. -/
  home : ∀ {i}, w.Held i → ∃ s < sb.slots, (w.shared i).block = sb.dataBlock s ∧ w.used s ∧
    ¬ w.Active s ∧ contentHash (w.data s).bytes = (w.shared i).key ∧ P (w.data s)
  /-- No block is shared twice. -/
  block_inj : ∀ {i j}, w.Held i → w.Held j → (w.shared i).block = (w.shared j).block → i = j
  /-- No content is shared twice. -/
  content_inj : ∀ {i j}, w.Held i → w.Held j → (w.shared i).key = (w.shared j).key → i = j
  counted : ∀ {i}, w.Held i → 1 ≤ (w.shared i).refCount.toNat ∧
    w.refs sb (w.shared i).block + σ (w.shared i).block = (w.shared i).refCount.toNat
  /-- A pointer leads to a shared block. -/
  backed : ∀ {s}, sb.isDedup → w.Active s → w.pointer s ≠ 0 →
    ∃ i, w.Held i ∧ (w.shared i).block = w.pointer s

/-- The slot is in use and nothing references it. -/
structure Loose (w : View) (sb : Superblock) (s : Nat) : Prop where
  lt : s < sb.slots
  used : w.used s
  not_active : ¬ w.Active s
  not_held : ∀ {i}, w.Held i → (w.shared i).block ≠ sb.dataBlock s

/-- The entry with its count corrected; one that counts nothing is freed. -/
def corrected (e : DedupEntry) (actual : Nat) : DedupEntry :=
  if actual = 0 then .free else { e with refCount := UInt16.ofNat actual }

variable {sb : Superblock} {length : Nat} {P : Block → Prop} {σ τ : Nat → Nat} {w : View} {s t i p : Nat}

/-! ### Counting pointers -/

theorem countP_range_of_ne {p q : Nat → Bool} {n t : Nat} (ht : t < n)
    (h : ∀ s < n, s ≠ t → p s = q s) :
    (List.range n).countP p + (q t).toNat = (List.range n).countP q + (p t).toNat := by
  induction n with
  | zero => omega
  | succ n ih =>
    rw [List.range_succ, List.countP_append, List.countP_append, List.countP_singleton,
      List.countP_singleton]
    by_cases hn : t = n
    · subst hn
      have hsame : (List.range t).countP p = (List.range t).countP q := by
        refine List.countP_congr ?_
        intro s hs
        have hs := List.mem_range.1 hs
        rw [h s (by omega) (by omega)]
      rw [hsame]
      cases p t <;> cases q t <;> rfl
    · have hrest := ih (by omega) fun s hs hne => h s (by omega) hne
      rw [h n (by omega) (Ne.symm hn)]
      omega

theorem refs_congr {w' : View} (b : Nat)
    (h : ∀ s < sb.slots, (w'.Active s ∧ w'.pointer s = b) ↔ (w.Active s ∧ w.pointer s = b)) :
    w'.refs sb b = w.refs sb b := by
  refine List.countP_congr ?_
  intro s hs
  rw [decide_eq_true_eq, decide_eq_true_eq]
  exact h s (List.mem_range.1 hs)

/-- The pointers to a block after a change at one slot. -/
theorem refs_of_ne {u : View} (b : Nat) (ht : t < sb.slots)
    (h : ∀ s < sb.slots, s ≠ t →
      ((u.Active s ∧ u.pointer s = b) ↔ (w.Active s ∧ w.pointer s = b))) :
    u.refs sb b + (decide (w.Active t ∧ w.pointer t = b)).toNat =
      w.refs sb b + (decide (u.Active t ∧ u.pointer t = b)).toNat := by
  have hcount := countP_range_of_ne (p := fun s => decide (u.Active s ∧ u.pointer s = b))
    (q := fun s => decide (w.Active s ∧ w.pointer s = b)) ht fun s hs hne => by
      rw [decide_eq_decide]
      exact h s hs hne
  exact hcount

/-- What is counted is there. -/
theorem refs_pos (hs : s < sb.slots) (hactive : w.Active s) : 1 ≤ w.refs sb (w.pointer s) :=
  List.countP_pos_iff.2 ⟨s, List.mem_range.2 hs, by simp [hactive]⟩

/-! ### One change -/

theorem block_ne_zero (hfits : sb.Fits length) (h : w.Sound sb P σ) (hi : w.Held i) :
    (w.shared i).block ≠ 0 := by
  obtain ⟨s, -, hs, -⟩ := h.home hi
  exact hs ▸ hfits.dataBlock_ne_zero s

theorem sound_blank (sb : Superblock) (P : Block → Prop) (σ : Nat → Nat) : blank.Sound sb P σ := by
  have hkey : KeyEntry.free.isActive = false := by decide
  have hshared : DedupEntry.free.isActive = false := by decide
  have hactive (s : Nat) : ¬ blank.Active s := by simp [Active, blank, hkey]
  have hheld (i : Nat) : ¬ blank.Held i := by simp [Held, blank, hshared]
  exact {
    active_lt := fun h => absurd h (hactive _)
    held_lt := fun h => absurd h (hheld _)
    unique := fun h => absurd h (hactive _)
    vacant := fun _ => rfl
    used_of_active := fun h => absurd h (hactive _)
    blank := fun _ => rfl
    home := fun h => absurd h (hheld _)
    block_inj := fun h => absurd h (hheld _)
    content_inj := fun h => absurd h (hheld _)
    counted := fun h => absurd h (hheld _)
    backed := fun _ h => absurd h (hactive _) }

namespace Sound

/-- Only the surplus of shared blocks counts. -/
theorem congr (h : w.Sound sb P σ) (hσ : ∀ i, w.Held i → σ (w.shared i).block = τ (w.shared i).block) :
    w.Sound sb P τ :=
  { h with counted := fun {i} hi => by rw [← hσ i hi]; exact h.counted hi }

/-- The slot whose block a dedup entry holds. -/
theorem owner (h : w.Sound sb P σ) (hi : w.Held i) (hblock : (w.shared i).block = sb.dataBlock s) :
    w.used s ∧ ¬ w.Active s ∧ contentHash (w.data s).bytes = (w.shared i).key ∧ P (w.data s) := by
  obtain ⟨t, -, ht, hrest⟩ := h.home hi
  obtain rfl : t = s := Superblock.dataBlock_inj (ht.symm.trans hblock)
  exact hrest

/-- A slot that is not in use is not referenced either, so it is loose once its bit is set. -/
theorem loose_use (h : w.Sound sb P σ) (hs : s < sb.slots) (hclear : w.used s = false) :
    (w.setUsed s true).Loose sb s where
  lt := hs
  used := by simp
  not_active hactive := by
    have := h.used_of_active (s := s) hactive
    simp [hclear] at this
  not_held {i} hi hblock := by
    have hused := (h.owner (i := i) hi hblock).1
    rw [hclear] at hused
    cases hused

/-- Setting a bit. -/
theorem use (h : w.Sound sb P σ) (s : Nat) : (w.setUsed s true).Sound sb P σ where
  active_lt := h.active_lt
  held_lt := h.held_lt
  unique := h.unique
  vacant := h.vacant
  used_of_active {t} ht := by
    by_cases hts : t = s
    · simp [hts]
    · simpa [hts] using h.used_of_active ht
  blank {t} ht := by
    by_cases hts : t = s
    · simp [hts] at ht
    · exact h.blank (by simpa [hts] using ht)
  home {i} hi := by
    obtain ⟨t, ht, hblock, hused, hrest⟩ := h.home hi
    refine ⟨t, ht, hblock, ?_, hrest⟩
    by_cases hts : t = s
    · simp [hts]
    · simpa [hts] using hused
  block_inj := h.block_inj
  content_inj := h.content_inj
  counted := h.counted
  backed := h.backed

/-- Clearing the bit of a zeroed slot that nothing references. -/
theorem release (h : w.Sound sb P σ) (hs : w.Loose sb s) (hzero : w.data s = .zero) :
    (w.setUsed s false).Sound sb P σ where
  active_lt := h.active_lt
  held_lt := h.held_lt
  unique := h.unique
  vacant := h.vacant
  used_of_active {t} ht := by
    have hts : t ≠ s := by
      rintro rfl
      exact hs.not_active ht
    simpa [hts] using h.used_of_active ht
  blank {t} ht := by
    by_cases hts : t = s
    · rw [hts]
      exact hzero
    · exact h.blank (by simpa [hts] using ht)
  home {i} hi := by
    obtain ⟨t, ht, hblock, hused, hrest⟩ := h.home hi
    have hts : t ≠ s := by
      rintro rfl
      exact hs.not_held hi hblock
    exact ⟨t, ht, hblock, by simpa [hts] using hused, hrest⟩
  block_inj := h.block_inj
  content_inj := h.content_inj
  counted := h.counted
  backed := h.backed

/-- Writing to a slot that nothing references. -/
theorem setData (h : w.Sound sb P σ) (hs : w.Loose sb s) (b : Block) :
    (w.setData s b).Sound sb P σ where
  active_lt := h.active_lt
  held_lt := h.held_lt
  unique := h.unique
  vacant := h.vacant
  used_of_active := h.used_of_active
  blank {t} ht := by
    have hts : t ≠ s := by
      rintro rfl
      have := hs.used
      simp_all
    simpa [hts] using h.blank ht
  home {i} hi := by
    obtain ⟨t, ht, hblock, hused, hactive, hrest⟩ := h.home hi
    have hts : t ≠ s := by
      rintro rfl
      exact hs.not_held hi hblock
    exact ⟨t, ht, hblock, hused, hactive, by simpa [hts] using hrest⟩
  block_inj := h.block_inj
  content_inj := h.content_inj
  counted {i} hi := by
    refine ⟨(h.counted hi).1, ?_⟩
    rw [refs_congr (w := w)]
    · exact (h.counted hi).2
    · intro t _
      by_cases hts : t = s
      · subst hts
        simp only [iff_def, and_imp]
        exact ⟨fun ha => absurd ha hs.not_active, fun ha => absurd ha hs.not_active⟩
      · simp [Active, pointer, hts]
  backed {t} hd ht hp := by
    have hts : t ≠ s := by
      rintro rfl
      exact hs.not_active ht
    simp only [pointer, data_setData, if_neg hts] at hp ⊢
    exact h.backed hd ht hp

/-- A key that no other slot has stays the only one when it is given to a slot. -/
theorem unique_setKey (h : w.Sound sb P σ) {e : KeyEntry}
    (hnew : ∀ t, t ≠ s → w.Active t → (w.keys t).key ≠ e.key) {t u : Nat} (ht : t = s ∨ w.Active t)
    (hu : u = s ∨ w.Active u) (hkey : ((w.setKey s e).keys t).key = ((w.setKey s e).keys u).key) : t = u := by
  simp only [keys_setKey] at hkey
  by_cases hts : t = s <;> by_cases hus : u = s
  · rw [hts, hus]
  · rw [if_pos hts, if_neg hus] at hkey
    exact absurd hkey.symm (hnew u hus (hu.resolve_left hus))
  · rw [if_neg hts, if_pos hus] at hkey
    exact absurd hkey (hnew t hts (ht.resolve_left hts))
  · rw [if_neg hts, if_neg hus] at hkey
    exact h.unique (ht.resolve_left hts) (hu.resolve_left hus) hkey

/-- Entering a key in a loose slot without a pointer. -/
theorem activate (hfits : sb.Fits length) (h : w.Sound sb P σ) (hs : w.Loose sb s)
    (hp : w.pointer s = 0) {e : KeyEntry} (he : e.isActive)
    (hnew : ∀ t, w.Active t → (w.keys t).key ≠ e.key) : (w.setKey s e).Sound sb P σ := by
  have hactive (t : Nat) : (w.setKey s e).Active t ↔ t = s ∨ w.Active t := by
    by_cases hts : t = s
    · simp [Active, hts, he]
    · simp [Active, hts]
  refine { h with active_lt := ?_, unique := ?_, vacant := ?_, used_of_active := ?_, home := ?_,
                  counted := ?_, backed := ?_ }
  · intro t ht
    rcases (hactive t).1 ht with rfl | ht
    · exact hs.lt
    · exact h.active_lt ht
  · intro t u ht hu hkey
    exact h.unique_setKey (fun t _ => hnew t) ((hactive t).1 ht) ((hactive u).1 hu) hkey
  · intro t ht
    rw [hactive, not_or] at ht
    rw [keys_setKey, if_neg ht.1]
    exact h.vacant ht.2
  · intro t ht
    rcases (hactive t).1 ht with rfl | ht
    · exact hs.used
    · exact h.used_of_active ht
  · intro i hi
    obtain ⟨t, ht, hblock, hused, hidle, hrest⟩ := h.home hi
    refine ⟨t, ht, hblock, hused, ?_, hrest⟩
    rw [hactive, not_or]
    refine ⟨?_, hidle⟩
    rintro rfl
    exact hs.not_held hi hblock
  · intro i hi
    refine ⟨(h.counted hi).1, ?_⟩
    rw [refs_congr (w := w)]
    · exact (h.counted hi).2
    · intro t _
      rw [hactive]
      by_cases hts : t = s
      · subst hts
        have hne : w.pointer t ≠ (w.shared i).block := hp ▸ (block_ne_zero hfits h hi).symm
        exact ⟨fun ht => absurd ht.2 hne, fun ht => absurd ht.2 hne⟩
      · simp [hts, pointer]
  · intro t hd ht hpt
    rcases (hactive t).1 ht with rfl | ht
    · exact absurd hp hpt
    · exact h.backed hd ht hpt

/-- Changing the entry of a slot with a key, when no other slot has the new key. -/
theorem rekey (h : w.Sound sb P σ) (hs : w.Active s) {e : KeyEntry} (he : e.isActive)
    (hnew : ∀ t, t ≠ s → w.Active t → (w.keys t).key ≠ e.key) : (w.setKey s e).Sound sb P σ := by
  have hactive (t : Nat) : (w.setKey s e).Active t ↔ w.Active t := by
    by_cases hts : t = s
    · subst hts
      exact ⟨fun _ => hs, fun _ => by simp [Active, he]⟩
    · simp [Active, hts]
  refine { h with active_lt := fun ht => h.active_lt ((hactive _).1 ht), unique := ?_, vacant := ?_,
                  used_of_active := fun ht => h.used_of_active ((hactive _).1 ht), home := ?_,
                  counted := ?_, backed := fun hd ht => h.backed hd ((hactive _).1 ht) }
  · intro t u ht hu hkey
    exact h.unique_setKey hnew (.inr ((hactive t).1 ht)) (.inr ((hactive u).1 hu)) hkey
  · intro t ht
    rw [hactive] at ht
    have hts : t ≠ s := by
      rintro rfl
      exact ht hs
    rw [keys_setKey, if_neg hts]
    exact h.vacant ht
  · intro i hi
    obtain ⟨t, ht, hblock, hused, hidle, hrest⟩ := h.home hi
    exact ⟨t, ht, hblock, hused, by rwa [hactive], hrest⟩
  · intro i hi
    refine ⟨(h.counted hi).1, ?_⟩
    rw [refs_congr (w := w)]
    · exact (h.counted hi).2
    · intro t _
      rw [hactive]
      exact Iff.rfl

/-- Freeing the entry of a slot. Its pointer is lost, and the count of the block that it led to is too
high by one more. -/
theorem freeKey (h : w.Sound sb P σ) (hs : w.Active s) :
    (w.setKey s .free).Sound sb P (bump σ (w.pointer s)) := by
  have hactive (t : Nat) : (w.setKey s .free).Active t ↔ t ≠ s ∧ w.Active t := by
    by_cases hts : t = s
    · have hfree : KeyEntry.free.isActive = false := by decide
      simp [Active, hts, hfree]
    · simp [Active, hts]
  have hkeys (t : Nat) (ht : t ≠ s) : (w.setKey s .free).keys t = w.keys t := if_neg ht
  refine { h with active_lt := fun ht => h.active_lt ((hactive _).1 ht).2, unique := ?_,
                  vacant := ?_, used_of_active := fun ht => h.used_of_active ((hactive _).1 ht).2,
                  home := ?_, counted := ?_,
                  backed := fun hd ht => h.backed hd ((hactive _).1 ht).2 }
  · intro t u ht hu hkey
    rw [hactive] at ht hu
    rw [hkeys t ht.1, hkeys u hu.1] at hkey
    exact h.unique ht.2 hu.2 hkey
  · intro t ht
    by_cases hts : t = s
    · exact if_pos hts
    · rw [hkeys t hts]
      exact h.vacant fun ha => ht ((hactive t).2 ⟨hts, ha⟩)
  · intro i hi
    obtain ⟨t, ht, hblock, hused, hidle, hrest⟩ := h.home hi
    exact ⟨t, ht, hblock, hused, fun ha => hidle ((hactive t).1 ha).2, hrest⟩
  · intro i hi
    obtain ⟨hpos, hcount⟩ := h.counted hi
    refine ⟨hpos, ?_⟩
    have hrefs := refs_of_ne (w := w) (u := w.setKey s .free) (w.shared i).block (h.active_lt hs)
      fun t _ hts => by
        rw [hactive]
        simp [hts, pointer]
    have hgone : ¬ (w.setKey s .free).Active s := fun ha => ((hactive s).1 ha).1 rfl
    change (w.setKey s .free).refs sb (w.shared i).block +
      bump σ (w.pointer s) (w.shared i).block = (w.shared i).refCount.toNat
    by_cases hp : w.pointer s = (w.shared i).block
    · simp only [hgone, hs, hp, false_and, and_true, decide_true, decide_false, Bool.toNat_true,
        Bool.toNat_false] at hrefs
      rw [hp, bump_self]
      omega
    · simp only [hgone, hp, and_false, false_and, decide_false, Bool.toNat_false] at hrefs
      rw [bump_of_ne _ (Ne.symm hp)]
      omega

/-- A slot whose entry was freed is loose. -/
theorem loose_freeKey (h : w.Sound sb P σ) (hs : w.Active s) : (w.setKey s .free).Loose sb s where
  lt := h.active_lt hs
  used := h.used_of_active hs
  not_active ha := by
    have hfree : KeyEntry.free.isActive = false := by decide
    simp [Active, hfree] at ha
  not_held {i} hi hblock := (h.owner (i := i) hi hblock).2.1 hs

/-- Replacing the data block of a slot with a key; on a deduplicating volume, by a pointer for which a
reference was taken. The reference of the pointer that was there is left over. -/
theorem setPointer (h : w.Sound sb P (bump σ p)) (hs : w.Active s) {b : Block}
    (hb : Volume.pointer b = p) (hp : sb.isDedup → p ≠ 0 → ∃ i, w.Held i ∧ (w.shared i).block = p) :
    (w.setData s b).Sound sb P (bump σ (w.pointer s)) := by
  have hself : (w.setData s b).pointer s = p := by
    simp [pointer, hb]
  have hother (t : Nat) (hts : t ≠ s) : (w.setData s b).pointer t = w.pointer t := by
    simp [pointer, hts]
  obtain ⟨old, hold⟩ : ∃ old, old = w.pointer s := ⟨_, rfl⟩
  rw [← hold]
  refine { h with blank := ?_, home := ?_, counted := ?_, backed := ?_ }
  · intro t ht
    have hts : t ≠ s := by
      rintro rfl
      have := h.used_of_active hs
      simp_all
    rw [data_setData, if_neg hts]
    exact h.blank ht
  · intro i hi
    obtain ⟨t, ht, hblock, hused, hidle, hrest⟩ := h.home hi
    have hts : t ≠ s := by
      rintro rfl
      exact hidle hs
    exact ⟨t, ht, hblock, hused, hidle, by rwa [data_setData, if_neg hts]⟩
  · intro i hi
    obtain ⟨hpos, hcount⟩ := h.counted hi
    refine ⟨hpos, ?_⟩
    have hrefs := refs_of_ne (w := w) (u := w.setData s b) (w.shared i).block (h.active_lt hs)
      fun t _ hts => by
        rw [hother t hts]
        exact Iff.rfl
    have hstill : (w.setData s b).Active s := hs
    rw [hself, ← hold] at hrefs
    simp only [hs, hstill, true_and] at hrefs
    change (w.setData s b).refs sb (w.shared i).block +
      bump σ old (w.shared i).block = (w.shared i).refCount.toNat
    simp only [bump, eq_comm (a := (w.shared i).block)] at hcount ⊢
    by_cases heq : old = (w.shared i).block <;> by_cases hnew : p = (w.shared i).block <;>
      simp only [heq, hnew, if_true, if_false, decide_true, decide_false, Bool.toNat_true,
        Bool.toNat_false] at hrefs hcount ⊢ <;>
      omega
  · intro t hd ht hpt
    by_cases hts : t = s
    · subst hts
      rw [hself] at hpt ⊢
      exact hp hd hpt
    · rw [hother t hts] at hpt ⊢
      exact h.backed hd ht hpt

/-- A plain volume has no dedup entries. -/
theorem not_held (hd : sb.isDedup = false) (h : w.Sound sb P σ) : ¬ w.Held i := fun hi => by
  have hlt := h.held_lt hi
  rw [Superblock.dedupCapacity, Superblock.dedupBlocks, if_neg (by rw [hd]; decide)] at hlt
  omega

/-- Writing the value of a slot of a plain volume. -/
theorem setValue (hd : sb.isDedup = false) (h : w.Sound sb P σ) (hs : w.Active s) (b : Block) :
    (w.setData s b).Sound sb P σ := by
  have hbump : w.Sound sb P (bump σ (Volume.pointer b)) :=
    h.congr fun i hi => absurd hi (h.not_held hd)
  have hnot : sb.isDedup → Volume.pointer b ≠ 0 → ∃ i, w.Held i ∧ (w.shared i).block =
      Volume.pointer b := fun hd' => by rw [hd] at hd'; cases hd'
  have hdone := hbump.setPointer hs rfl hnot
  exact hdone.congr fun i hi => absurd hi (hdone.not_held hd)

/-- Entering a loose slot in the dedup table under its content, with one reference. -/
theorem enter (hd : sb.isDedup) (hfits : sb.Fits length) (h : w.Sound sb P σ) (hs : w.Loose sb s)
    (hi : i < sb.dedupCapacity) (hidle : ¬ w.Held i) {e : DedupEntry} (he : e.isActive)
    (hblock : e.block = sb.dataBlock s) (hcount : e.refCount.toNat = 1)
    (hhash : contentHash (w.data s).bytes = e.key) (hP : P (w.data s))
    (hnew : ∀ j, w.Held j → (w.shared j).key ≠ e.key) (hσ : σ (sb.dataBlock s) = 0) :
    (w.setShared i e).Sound sb P (bump σ (sb.dataBlock s)) := by
  have hheld (j : Nat) : (w.setShared i e).Held j ↔ j = i ∨ w.Held j := by
    by_cases hji : j = i
    · simp [Held, hji, he]
    · simp [Held, hji]
  have hshared (j : Nat) (hj : w.Held j) : (w.setShared i e).shared j = w.shared j := by
    refine if_neg ?_
    rintro rfl
    exact hidle hj
  have hself : (w.setShared i e).shared i = e := if_pos rfl
  refine { h with held_lt := ?_, home := ?_, block_inj := ?_, content_inj := ?_, counted := ?_,
                  backed := ?_ }
  · intro j hj
    rcases (hheld j).1 hj with rfl | hj
    · exact hi
    · exact h.held_lt hj
  · intro j hj
    rcases (hheld j).1 hj with rfl | hj
    · rw [hself]
      exact ⟨s, hs.lt, hblock, hs.used, hs.not_active, hhash, hP⟩
    · rw [hshared j hj]
      exact h.home hj
  · intro j k hj hk hjk
    rcases (hheld j).1 hj with rfl | hj' <;> rcases (hheld k).1 hk with rfl | hk'
    · rfl
    · rw [hself, hshared k hk', hblock] at hjk
      exact absurd hjk.symm (hs.not_held hk')
    · rw [hself, hshared j hj', hblock] at hjk
      exact absurd hjk (hs.not_held hj')
    · rw [hshared j hj', hshared k hk'] at hjk
      exact h.block_inj hj' hk' hjk
  · intro j k hj hk hjk
    rcases (hheld j).1 hj with rfl | hj' <;> rcases (hheld k).1 hk with rfl | hk'
    · rfl
    · rw [hself, hshared k hk'] at hjk
      exact absurd hjk.symm (hnew k hk')
    · rw [hself, hshared j hj'] at hjk
      exact absurd hjk (hnew j hj')
    · rw [hshared j hj', hshared k hk'] at hjk
      exact h.content_inj hj' hk' hjk
  · intro j hj
    rcases (hheld j).1 hj with rfl | hj
    · -- Nothing points at the block yet: a pointer to it would be backed by an entry.
      have hnone : w.refs sb (sb.dataBlock s) = 0 := by
        refine List.countP_eq_zero.2 ?_
        intro t _ ht
        obtain ⟨ht, hpt⟩ := of_decide_eq_true ht
        have hne : w.pointer t ≠ 0 := hpt ▸ hfits.dataBlock_ne_zero s
        obtain ⟨k, hk, hkt⟩ := h.backed hd ht hne
        exact hs.not_held hk (hkt.trans hpt)
      rw [hself, hblock, bump_self, hσ, hcount]
      exact ⟨Nat.le_refl _, by rw [show (w.setShared j e).refs sb (sb.dataBlock s) = 0 from hnone]⟩
    · rw [hshared j hj, bump_of_ne _ (hs.not_held hj)]
      exact h.counted hj
  · intro t hdd ht hpt
    obtain ⟨j, hj, hjt⟩ := h.backed hdd ht hpt
    exact ⟨j, (hheld j).2 (.inr hj), by rw [hshared j hj]; exact hjt⟩

/-- Changing the reference count of an entry. -/
theorem recount (h : w.Sound sb P σ) (hi : w.Held i) {e : DedupEntry} (he : e.isActive)
    (hkey : e.key = (w.shared i).key) (hblock : e.block = (w.shared i).block)
    (hpos : 1 ≤ e.refCount.toNat) (hcount : w.refs sb e.block + τ e.block = e.refCount.toNat)
    (hτ : ∀ b, b ≠ e.block → τ b = σ b) : (w.setShared i e).Sound sb P τ := by
  have hheld (j : Nat) : (w.setShared i e).Held j ↔ w.Held j := by
    by_cases hji : j = i
    · subst hji
      exact ⟨fun _ => hi, fun _ => by simp [Held, he]⟩
    · simp [Held, hji]
  have hkeys (j : Nat) : ((w.setShared i e).shared j).key = (w.shared j).key := by
    by_cases hji : j = i
    · simp [hji, hkey]
    · simp [hji]
  have hblocks (j : Nat) : ((w.setShared i e).shared j).block = (w.shared j).block := by
    by_cases hji : j = i
    · simp [hji, hblock]
    · simp [hji]
  refine { h with held_lt := fun hj => h.held_lt ((hheld _).1 hj), home := ?_, block_inj := ?_,
                  content_inj := ?_, counted := ?_, backed := ?_ }
  · intro j hj
    rw [hkeys, hblocks]
    exact h.home ((hheld j).1 hj)
  · intro j k hj hk hjk
    rw [hblocks, hblocks] at hjk
    exact h.block_inj ((hheld j).1 hj) ((hheld k).1 hk) hjk
  · intro j k hj hk hjk
    rw [hkeys, hkeys] at hjk
    exact h.content_inj ((hheld j).1 hj) ((hheld k).1 hk) hjk
  · intro j hj
    by_cases hji : j = i
    · subst hji
      rw [shared_setShared, if_pos rfl]
      exact ⟨hpos, hcount⟩
    · have hj := (hheld j).1 hj
      rw [shared_setShared, if_neg hji, hτ]
      · exact h.counted hj
      · rw [hblock]
        exact fun hb => hji (h.block_inj hj hi hb)
  · intro t hd ht hpt
    obtain ⟨j, hj, hjt⟩ := h.backed hd ht hpt
    exact ⟨j, (hheld j).2 hj, (hblocks j).trans hjt⟩

/-- Freeing a dedup entry whose block has no pointer to it. -/
theorem freeShared (h : w.Sound sb P σ) (hi : w.Held i)
    (hnone : w.refs sb (w.shared i).block = 0) : (w.setShared i .free).Sound sb P σ := by
  have hheld (j : Nat) : (w.setShared i .free).Held j ↔ j ≠ i ∧ w.Held j := by
    by_cases hji : j = i
    · have hfree : DedupEntry.free.isActive = false := by decide
      simp [Held, hji, hfree]
    · simp [Held, hji]
  have hshared (j : Nat) (hji : j ≠ i) : (w.setShared i .free).shared j = w.shared j := if_neg hji
  refine { h with held_lt := fun hj => h.held_lt ((hheld _).1 hj).2, home := ?_, block_inj := ?_,
                  content_inj := ?_, counted := ?_, backed := ?_ }
  · intro j hj
    have hj := (hheld j).1 hj
    rw [hshared j hj.1]
    exact h.home hj.2
  · intro j k hj hk hjk
    have hj := (hheld j).1 hj
    have hk := (hheld k).1 hk
    rw [hshared j hj.1, hshared k hk.1] at hjk
    exact h.block_inj hj.2 hk.2 hjk
  · intro j k hj hk hjk
    have hj := (hheld j).1 hj
    have hk := (hheld k).1 hk
    rw [hshared j hj.1, hshared k hk.1] at hjk
    exact h.content_inj hj.2 hk.2 hjk
  · intro j hj
    have hj := (hheld j).1 hj
    rw [hshared j hj.1]
    exact h.counted hj.2
  · intro t hd ht hpt
    obtain ⟨j, hj, hjt⟩ := h.backed hd ht hpt
    have hji : j ≠ i := by
      rintro rfl
      have hpos : 1 ≤ w.refs sb (w.pointer t) := refs_pos (h.active_lt ht) ht
      rw [← hjt] at hpos
      omega
    exact ⟨j, (hheld j).2 ⟨hji, hj⟩, by rw [hshared j hji]; exact hjt⟩

/-- The slot of an entry that was freed is loose. -/
theorem loose_freeShared (h : w.Sound sb P σ) (hi : w.Held i) (hs : s < sb.slots)
    (hblock : (w.shared i).block = sb.dataBlock s) : (w.setShared i .free).Loose sb s := by
  obtain ⟨hused, hidle, -⟩ := h.owner hi hblock
  refine ⟨hs, hused, hidle, fun {j} hj hjs => ?_⟩
  by_cases hji : j = i
  · have hfree : DedupEntry.free.isActive = false := by decide
    simp [Held, hji, hfree] at hj
  · simp only [Held, shared_setShared, if_neg hji] at hj hjs
    exact hji (h.block_inj hj hi (hjs.trans hblock.symm))

/-- Correcting the count of an entry, which frees it if there is nothing to count. -/
theorem correct (h : w.Sound sb P σ) (hi : w.Held i) {n : Nat}
    (hn : w.refs sb (w.shared i).block + τ (w.shared i).block = n) (hle : n ≤ (w.shared i).refCount.toNat)
    (hτ : ∀ b, b ≠ (w.shared i).block → τ b = σ b) :
    (w.setShared i (corrected (w.shared i) n)).Sound sb P τ := by
  rw [corrected]
  split
  · refine (h.freeShared hi (by omega)).congr ?_
    intro j hj
    have hji : j ≠ i := by
      rintro rfl
      have hfree : DedupEntry.free.isActive = false := by decide
      simp [Held, hfree] at hj
    simp only [Held, shared_setShared, if_neg hji] at hj ⊢
    exact (hτ _ fun hb => hji (h.block_inj hj hi hb)).symm
  · have hlt := (w.shared i).refCount.toNat_lt
    have hnat : (UInt16.ofNat n).toNat = n := UInt16.toNat_ofNat_of_lt' (Nat.lt_of_le_of_lt hle hlt)
    refine h.recount hi hi rfl rfl ?_ ?_ hτ
    · dsimp only
      omega
    · change w.refs sb (w.shared i).block + τ (w.shared i).block = _
      dsimp only
      omega

end Sound

end View

end BlockStore
