import BlockStore.Proofs.Resumption

/-!
# Losing a value between two repairs

`Volume.repair_resumes` leaves one way open in which a value can be lost, and it is a real one. A repair
frees the entries that count nothing before it frees the rejected ones. So when it stops in between, a
rejected entry can be all that claims its block, and a second repair accepts it. If an entry further on has
the same content, the second repair rejects that one, and clears the pointers to its block.

## Main definitions

* `View.Usurps`: an entry that takes the content of another one when the first repair has stopped.
* `View.recounted`: the view where it has to stop for that.
* `Volume.Reaches`: a run comes by a volume with some view.

## Main results

* `View.Usurps.contested`: that is one of the ways in which an entry can be contested.
* `View.Usurps.mem_dangling`: a good pointer dangles where the counts have been put right.
* `Volume.value_lost`: so its value is gone when what was left has been repaired.
* `Volume.exists_value_lost`: that can happen to any value, on every deduplicating volume with three slots.
-/

namespace BlockStore

namespace View

variable {w : View} {sb : Superblock} {length : Nat} {visit : List SharedBlock → List SharedBlock} {s i : Nat}
  {a b c : SharedBlock}

/-! ### Where the counts have been put right -/

/-- The first rejected entry has the block of an accepted entry `a` that is going to be freed, and the
content of an accepted entry `c` behind it, whose block no rejected entry has. -/
structure Usurps (w : View) (sb : Superblock) (i : Nat) (a c : SharedBlock) : Prop where
  mem : a ∈ w.accepted sb
  goes : ¬ w.Stays sb a
  rejected : i ∈ w.rejected sb
  first : ∀ j ∈ w.rejected sb, i ≤ j
  block : (w.shared i).block = a.block
  rival : c ∈ w.accepted sb
  behind : i < c.index
  content : c.content = (w.shared i).key
  alone : ∀ j ∈ w.rejected sb, (w.shared j).block ≠ c.block

/-- What the usurper was rejected for comes before it, so there is a contested entry. -/
theorem Usurps.contested (h : w.Usurps sb i a c) : w.Contested sb := by
  have hclaims := claims_of_mem h.mem
  obtain ⟨e, he, hlt, heq⟩ := exists_before h.rejected hclaims.slot_lt
    (h.block.trans hclaims.block_of) hclaims.not_logical
  have hbefore : a.index < i := by
    rcases heq with heq | heq
    · obtain rfl := (eq_or_apart he h.mem).resolve_right fun hne => hne.block (heq.trans h.block)
      exact hlt
    · obtain rfl := (eq_or_apart he h.rival).resolve_right fun hne => hne.content (heq.trans h.content.symm)
      exact absurd hlt (Nat.not_lt.2 (Nat.le_of_lt h.behind))
  exact ⟨a, h.mem, h.goes, i, h.rejected, hbefore, h.block, c, h.rival, h.behind, h.content⟩

/-- The view when a repair has put the counts right and has not freed the rejected entries yet. -/
def recounted (w : View) (sb : Superblock) (visit : List SharedBlock → List SharedBlock) : View :=
  w.after ((w.dangling sb).map .zeroData ++ w.countChanges (w.pointers sb) (visit (w.accepted sb)))

section Recounted

variable (hvisit : ∀ l, (visit l).Perm l)

include hvisit

theorem partway_recounted : w.Partway sb (w.recounted sb visit) := by
  have hplan := w.along_partway sb hvisit
  rw [repairs, sharedRepairs, ← List.append_assoc ((w.dangling sb).map _), List.append_assoc,
    along_append] at hplan
  exact hplan.1.last (w.partway_self sb)

theorem shared_recounted_of_rejected (hi : i ∈ w.rejected sb) :
    (w.recounted sb visit).shared i = w.shared i := by
  rw [recounted, after_append, countChanges, shared_after_of_not_mem, shared_after_zeroData]
  intro b hb
  exact (mem_rejected.1 hi).2.2 b ((hvisit _).mem_iff.1 (List.mem_filter.1 hb).1)

theorem shared_recounted_of_goes (hb : b ∈ w.accepted sb) (hgoes : ¬ w.Stays sb b) :
    (w.recounted sb visit).shared b.index = .free := by
  obtain ⟨hcount, hzero⟩ := not_or.1 hgoes
  rw [recounted, after_append, countChanges]
  refine shared_after_of_mem ?_ (.inl ⟨b, ?_, rfl⟩)
  · intro a ha hab
    have ha := (hvisit _).mem_iff.1 (List.mem_filter.1 ha).1
    obtain rfl := (eq_or_apart ha hb).resolve_right fun hne => hne.index hab
    exact if_pos (Classical.not_not.1 hzero)
  · rw [List.mem_filter, decide_eq_true_eq]
    exact ⟨(hvisit _).mem_iff.2 hb, hcount⟩

/-- Where a repair has put the counts right, the usurper is accepted: what it was rejected for has been
freed. -/
theorem Usurps.exists_accepted (h : w.Usurps sb i a c) :
    ∃ e ∈ (w.recounted sb visit).accepted sb, e.index = i := by
  have hfree : DedupEntry.free.isActive = false := by decide
  have hpartway : w.Partway sb (w.recounted sb visit) := partway_recounted hvisit
  have hsame := shared_recounted_of_rejected hvisit h.rejected
  obtain ⟨hi, hheld, -⟩ := mem_rejected.1 h.rejected
  have hheld' : (w.recounted sb visit).Held i := by
    rw [Held, hsame]
    exact hheld
  refine (accepted_or_rejected hi hheld').resolve_right fun hrejected => ?_
  have hclaims := claims_of_mem h.mem
  obtain ⟨e, he, hlt, heq⟩ := exists_before hrejected hclaims.slot_lt
    ((congrArg _ hsame).trans (h.block.trans hclaims.block_of)) (hpartway.logical_eq ▸ hclaims.not_logical)
  -- The entries before `i` that are still there were accepted at first.
  obtain ⟨hheld, hblock, hcontent⟩ := hpartway.claimed he
  obtain ⟨b, hb, hindex⟩ := (accepted_or_rejected (claims_of_mem he).index_lt hheld).resolve_right
    fun hmem => absurd hlt (Nat.not_lt.2 (h.first _ hmem))
  rw [← hindex, (claims_of_mem hb).block_eq] at hblock
  rw [← hindex, (claims_of_mem hb).content_eq] at hcontent
  rw [hsame, ← hblock, ← hcontent, h.block, ← h.content] at heq
  rcases heq with heq | heq
  · obtain rfl := (eq_or_apart hb h.mem).resolve_right fun hne => hne.block heq
    have hgone := (claims_of_mem he).held
    rw [Held, ← hindex, shared_recounted_of_goes hvisit hb h.goes, hfree] at hgone
    cases hgone
  · obtain rfl := (eq_or_apart hb h.rival).resolve_right fun hne => hne.content heq
    have := h.behind
    omega

/-- No accepted entry has the block of its rival then. -/
theorem Usurps.block_not_mem (h : w.Usurps sb i a c) :
    c.block ∉ (w.recounted sb visit).sharedBlocks sb := by
  intro hmem
  have hpartway : w.Partway sb (w.recounted sb visit) := partway_recounted hvisit
  obtain ⟨f, hf, hfblock⟩ := List.mem_map.1 hmem
  obtain ⟨e, he, hei⟩ := h.exists_accepted hvisit
  obtain ⟨hheld, hblock, hcontent⟩ := hpartway.claimed hf
  obtain ⟨-, -, hcontent'⟩ := hpartway.claimed he
  rcases accepted_or_rejected (claims_of_mem hf).index_lt hheld with ⟨b, hb, hindex⟩ | hrejected
  · -- An entry with the block of `c` can only be `c`, whose content the usurper has.
    rw [← hindex, (claims_of_mem hb).block_eq, hfblock] at hblock
    rw [← hindex, (claims_of_mem hb).content_eq] at hcontent
    rw [hei, ← h.content] at hcontent'
    obtain rfl := (eq_or_apart hb h.rival).resolve_right fun hne => hne.block hblock
    obtain rfl := (eq_or_apart hf he).resolve_right fun hne =>
      hne.content (hcontent.symm.trans hcontent')
    have := h.behind
    omega
  · exact h.alone _ hrejected (hblock.trans hfblock)

/-- So the pointers to the block of its rival dangle. -/
theorem Usurps.mem_dangling (h : w.Usurps sb i a c) (hfits : sb.Fits length) (hs : s ∈ w.logical sb)
    (hp : w.pointer s = c.block) : s ∈ (w.recounted sb visit).dangling sb ∧ s ∉ w.dangling sb := by
  have hpartway : w.Partway sb (w.recounted sb visit) := partway_recounted hvisit
  have hclaims := claims_of_mem h.rival
  have hkept : s ∉ w.dangling sb := fun hmem =>
    (View.mem_dangling.1 hmem).2.2.2 (List.mem_map.2 ⟨c, h.rival, hp.symm⟩)
  refine ⟨?_, hkept⟩
  rw [View.mem_dangling, hpartway.logical_eq, hpartway.pointer_eq hs hkept, hp]
  exact ⟨hclaims.isDedup, hs, hclaims.block_ne_zero hfits, h.block_not_mem hvisit⟩

end Recounted

/-! ### A view with a usurper -/

section Usurped

variable {key content other : Key} {value : Block}

/-- A key with its value in slot 2. The entry of the value is the last one of three; the one before it has
the same content, and the block of the first. -/
def usurped (sb : Superblock) (key content other : Key) (value : Block) : View :=
  (((((blank.setKey 0 (.active key ⟨0⟩)).setData 0 (Volume.pointerBlock (sb.dataBlock 2))).setData 2
    value).setShared 0 (Volume.newEntry other (sb.dataBlock 1))).setShared 1
      (Volume.newEntry content (sb.dataBlock 1))).setShared 2 (Volume.newEntry content (sb.dataBlock 2))

theorem active_usurped : (usurped sb key content other value).Active s ↔ s = 0 := by
  have hfree : KeyEntry.free.isActive = false := by decide
  have hactive := isActive_active key ⟨0⟩
  rcases s with _ | s <;> simp [Active, usurped, blank, hfree, hactive]

theorem mem_logical_usurped (hslots : 0 < sb.slots) :
    s ∈ (usurped sb key content other value).logical sb ↔ s = 0 := by
  rw [logical_of_only hslots fun _ => active_usurped, List.mem_singleton]

theorem pointer_usurped (hfits : sb.Fits length) (hslots : 3 ≤ sb.slots) :
    (usurped sb key content other value).pointer 0 = sb.dataBlock 2 :=
  Volume.pointer_pointerBlock (hfits.dataBlock_lt_word hslots)

/-- The first and the last entry are accepted, and the one in between is rejected. -/
theorem acceptEntries_usurped (hfits : sb.Fits length) (hslots : 3 ≤ sb.slots)
    (hcapacity : 3 ≤ sb.dedupCapacity) (hne : content ≠ other) :
    acceptEntries sb ((usurped sb key content other value).logical sb) []
        (sb.sharedEntries (usurped sb key content other value)) =
      ([⟨sb.dataBlock 1, 1, 0, other, 1⟩, ⟨sb.dataBlock 2, 2, 2, content, 1⟩], [1]) := by
  have hidle : ∀ i, 3 ≤ i → ¬ (usurped sb key content other value).Held i := by
    intro i hi hheld
    have hfree : DedupEntry.free.isActive = false := by decide
    have h0 : i ≠ 0 := by omega
    have h1 : i ≠ 1 := by omega
    have h2 : i ≠ 2 := by omega
    simp [Held, usurped, blank, h0, h1, h2, hfree] at hheld
  have hentries : (List.range 3).map (fun i => (i, (usurped sb key content other value).shared i)) =
      [(0, Volume.newEntry other (sb.dataBlock 1)), (1, Volume.newEntry content (sb.dataBlock 1)),
        (2, Volume.newEntry content (sb.dataBlock 2))] := rfl
  have hblock (k : Key) {t : Nat} (ht : t < 3) :
      (Volume.newEntry k (sb.dataBlock t)).block = sb.dataBlock t :=
    Volume.block_newEntry k (hfits.dataBlock_lt_word (Nat.lt_of_lt_of_le ht hslots))
  have hslot {t : Nat} (ht : t < 3) : sb.slotOfBlock (sb.dataBlock t) = some t :=
    Superblock.slotOfBlock_dataBlock (Nat.lt_of_lt_of_le ht hslots)
  have hhome {t : Nat} (ht : t ≠ 0) : t ∉ (usurped sb key content other value).logical sb :=
    fun hmem => ht ((mem_logical_usurped (Nat.lt_of_lt_of_le (by decide) hslots)).1 hmem)
  have hdiff : sb.dataBlock 2 ≠ sb.dataBlock 1 := fun h => absurd (Superblock.dataBlock_inj h) (by decide)
  have hactive := Volume.isActive_newEntry
  have hkey (k : Key) (p : Nat) : (Volume.newEntry k p).key = k := rfl
  have hcount (k : Key) (p : Nat) : (Volume.newEntry k p).refCount.toNat = 1 := rfl
  rw [acceptEntries_sharedEntries hcapacity hidle, hentries]
  simp [acceptEntries, accept?, hactive, hkey, hcount, hblock, hslot, hhome, hdiff, hne]

theorem usurps_usurped (hfits : sb.Fits length) (hslots : 3 ≤ sb.slots) (hcapacity : 3 ≤ sb.dedupCapacity)
    (hne : content ≠ other) : (usurped sb key content other value).Usurps sb 1
      ⟨sb.dataBlock 1, 1, 0, other, 1⟩ ⟨sb.dataBlock 2, 2, 2, content, 1⟩ := by
  have haccepted : (usurped sb key content other value).accepted sb =
      [⟨sb.dataBlock 1, 1, 0, other, 1⟩, ⟨sb.dataBlock 2, 2, 2, content, 1⟩] :=
    congrArg Prod.fst (acceptEntries_usurped hfits hslots hcapacity hne)
  have hrejected : (usurped sb key content other value).rejected sb = [1] :=
    congrArg Prod.snd (acceptEntries_usurped hfits hslots hcapacity hne)
  have hdiff : sb.dataBlock 1 ≠ sb.dataBlock 2 := fun h => absurd (Superblock.dataBlock_inj h) (by decide)
  have hblock : ((usurped sb key content other value).shared 1).block = sb.dataBlock 1 :=
    Volume.block_newEntry content (hfits.dataBlock_lt_word (by omega))
  have hmem : ⟨sb.dataBlock 1, 1, 0, other, 1⟩ ∈ (usurped sb key content other value).accepted sb := by
    simp [haccepted]
  -- The only pointer leads to the block of slot 2.
  have hzero : (usurped sb key content other value).actual sb (sb.dataBlock 1) = 0 := by
    refine Classical.not_not.1 fun hcount => ?_
    obtain ⟨t, ht, hp⟩ := (actual_ne_zero_iff hfits hmem).1 hcount
    rw [(mem_logical_usurped (by omega)).1 ht, pointer_usurped hfits hslots] at hp
    exact hdiff hp.symm
  exact {
    mem := hmem
    goes := by simp [Stays, hzero]
    rejected := by simp [hrejected]
    first := by simp [hrejected]
    block := hblock
    rival := by simp [haccepted]
    behind := Nat.lt_succ_self 1
    content := rfl
    alone := by simp [hrejected, hblock, hdiff] }

end Usurped

end View

namespace Volume

variable {sb : Superblock} {r : Prop} {v u t : Volume} {w x : View} {free : List Nat} {d : Device}
  {visit : List SharedBlock → List SharedBlock} {i s : Nat} {a c : SharedBlock} {α β : Type}

/-! ### Stopping between two parts of a run -/

/-- A volume on a trail is the cut after the writes that led to it. -/
theorem Trail.image_eq_cut {I J : Volume → Prop} (h : Trail I v t) (h' : Trail J t u) :
    t.device.image = v.cut u (v.writesSince t).length := by
  have hwrites : v.writesSince u = v.writesSince t ++ t.writesSince u := by
    rw [writesSince, h'.log_eq, h.log_eq, List.append_assoc]
    exact List.drop_left
  rw [cut, hwrites, List.take_left, h.replay_writesSince]

/-- A run of an action that carries out a plan. -/
theorem Performs.of_ok {act : VolumeM α} {b b' : α} {plan : List Change} (h : Performs sb r act w b plan)
    (hv : v.Shows sb r w free) (hrun : act v = .ok b' u) :
    b' = b ∧ Trail (fun _ => True) v u ∧ ∃ free', u.Shows sb r (w.after plan) free' := by
  have hruns := h (fun _ => True) v free hv (View.along_true _ _)
  rw [Runs, hrun] at hruns
  exact ⟨hruns.2.1, hruns.1.mono fun _ _ => trivial, hruns.2.2⟩

/-- Every run of the action that succeeds, from a volume with the view `w`, comes by one with the view
`x`. -/
def Reaches (sb : Superblock) (r : Prop) (act : VolumeM α) (w x : View) : Prop :=
  ∀ v free b u, v.Shows sb r w free → act v = .ok b u →
    ∃ t free', t.Shows sb r x free' ∧ Trail (fun _ => True) v t ∧ Trail (fun _ => True) t u

namespace Reaches

variable {act : VolumeM α} {b : α} {b' : β} {plan plan' : List Change}

/-- The view that the action starts from. -/
theorem start (h : Performs sb r act w b plan) : Reaches sb r act w w := fun _ _ _ _ hv hrun =>
  ⟨_, _, hv, .refl, (h.of_ok hv hrun).2.1⟩

/-- One that the second part comes by. -/
theorem later {f : α → VolumeM β} (h : Performs sb r act w b plan)
    (h' : Reaches sb r (f b) (w.after plan) x) : Reaches sb r (act >>= f) w x := by
  intro v free b' u hv hrun
  cases hact : act v with
  | error e t => rw [bind_of_error hact] at hrun; cases hrun
  | ok b'' t =>
    rw [bind_of_ok hact] at hrun
    obtain ⟨rfl, htrail, free', ht⟩ := h.of_ok hv hact
    obtain ⟨y, free'', hy, hbefore, hbehind⟩ := h' t free' b' u ht hrun
    exact ⟨y, free'', hy, htrail.trans hbefore, hbehind⟩

/-- One that the first part comes by. -/
theorem earlier {f : α → VolumeM β} (h : Reaches sb r act w x) (hact : Performs sb r act w b plan)
    (hf : Performs sb r (f b) (w.after plan) b' plan') : Reaches sb r (act >>= f) w x := by
  intro v free b'' u hv hrun
  cases hdone : act v with
  | error e t => rw [bind_of_error hdone] at hrun; cases hrun
  | ok b''' t =>
    rw [bind_of_ok hdone] at hrun
    obtain ⟨y, free', hy, hbefore, hbehind⟩ := h v free b''' t hv hdone
    obtain ⟨rfl, -, free'', ht⟩ := hact.of_ok hv hdone
    exact ⟨y, free', hy, hbefore, hbehind.trans (hf.of_ok ht hrun).2.1⟩

theorem get_bind {f : Volume → VolumeM β} (h : ∀ v free, v.Shows sb r w free → Reaches sb r (f v) w x) :
    Reaches sb r (get >>= f) w x := fun v free b u hv hrun => h v free hv v free b u hv hrun

end Reaches

/-- A repair comes by the view where the counts have been put right. -/
theorem reaches_recounted (hd : sb.isDedup) (hvisit : ∀ l, (visit l).Perm l) :
    Reaches sb r (checkVisiting visit true) w (w.recounted sb visit) := by
  have hshared : Reaches sb r (checkShared visit true ⟨sb.dedupStart, sb.dedupBlocks⟩ (w.logical sb)) w
      (w.recounted sb visit) := by
    rw [checkShared, View.recounted, View.after_append]
    refine .later performs_readTable (.get_bind fun v free hv => ?_)
    rw [hv.superblock]
    refine .later (performs_logicalPointers hd true) (.later
      (performs_acceptedCounts hvisit true (w.shared_after_zeroData _)) ?_)
    exact .start ((performs_freeDedupEntries fun i hi => (View.mem_rejected.1 hi).1).bind_pure .pure)
  have hused : (w.after (w.sharedRepairs sb visit)).used = w.used := View.used_after_sharedRepairs
  rw [checkVisiting]
  refine .later performs_readKeys (.get_bind fun v free hv => ?_)
  rw [hv.dedupTable_eq, if_pos hd]
  exact hshared.earlier (performs_checkShared hd hvisit true) (performs_checkSlots true hused)

/-- **A value can be lost.** Where an entry usurps the place of another one, `c`, let a slot with a key point
at the block of `c`. A repair that is not interrupted keeps the value of that key. But if it is cut just before
it frees the rejected entries, the value is gone when what it has left has been repaired. -/
theorem value_lost (hr : d.Reliable) (hread : Superblock.read d = .ok sb) (order order' : VisitOrder)
    (h : (sb.view d.image).Usurps sb i a c) (hs : s ∈ (sb.view d.image).logical sb)
    (hp : (sb.view d.image).pointer s = c.block) :
    ∃ v report u k, mount false d = .ok v d ∧ checkVisiting order.visit true v = .ok report u ∧
      u.get ((sb.view d.image).keys s).key = .ok ((sb.view d.image).data c.slot) ∧
      ∀ d' : Device, d'.Reliable → d'.image = v.cut u k →
        ∃ t again x, mount false d' = .ok t d' ∧ checkVisiting order'.visit true t = .ok again x ∧
          x.get ((sb.view d.image).keys s).key = .ok .zero := by
  obtain ⟨hstored, hfits⟩ := Superblock.of_read hread
  obtain ⟨w, hw⟩ : ∃ w, w = sb.view d.image := ⟨_, rfl⟩
  have hwithin : w.Within sb := hw ▸ View.within_view sb d.image
  obtain ⟨v, u, free, free', hmount, -, hv, hrun, hu, -⟩ := exists_repair hr hstored hfits order.perm
  rw [← hw] at h hs hp hv hrun hu ⊢
  have hclaims := View.claims_of_mem h.rival
  obtain ⟨hlost, hkept⟩ := h.mem_dangling order.perm hfits hs hp
  have hslot : (w.repaired sb order.visit).slotOf sb (w.keys s).key = some s := by
    rw [hwithin.slotOf_repaired]
    exact View.slotOf_eq_some_iff.2 ⟨hs, rfl⟩
  obtain ⟨y, free'', hy, hbefore, hbehind⟩ :=
    reaches_recounted hclaims.isDedup order.perm v free _ u hv hrun
  refine ⟨v, _, u, (v.writesSince y).length, hmount, hrun, ?_, fun d' hr' himage => ?_⟩
  · rw [hu.get_eq_fetch hr hslot, View.fetch_repaired_of_not_mem hfits hs hkept]
    exact View.fetch_of_pointer_eq hclaims.isDedup hfits hclaims.slot_lt (hp.trans hclaims.block_of)
  · have himage' := himage.trans (hbefore.image_eq_cut hbehind).symm
    have hview : sb.view d'.image = w.recounted sb order.visit := by rw [himage', hy.view]
    obtain ⟨hstored', hfits', hpartway⟩ := hv.partway_cut hr order.perm hrun himage
    obtain ⟨t, x, -, free''', hmount', -, -, hrun', hx, -⟩ :=
      exists_repair hr' hstored' hfits' order'.perm
    have hresumes := hu.resumes hr hx hr' hwithin (View.within_view sb d'.image) hpartway
    have hfound : x.lookup (w.keys s).key = .ok s := by
      rw [hresumes.lookup]
      exact (hu.lookup_eq_ok_iff hr).2 hslot
    refine ⟨t, _, x, hmount', hrun', ?_⟩
    rw [hx.get_eq_fetch hr' ((hx.lookup_eq_ok_iff hr').1 hfound)]
    exact View.fetch_repaired_of_mem hfits' (hview ▸ hlost)

/-! ### Any value can be lost -/

/-- There is a volume with the usurper, on every layout with room for it. -/
theorem exists_shows_usurped {l : Layout} (hd : l.dedup) (hslots : 3 ≤ l.slots) (key content other : Key)
    (value : Block) :
    ∃ v free, Shows v l.superblock True (View.usurped l.superblock key content other value) free := by
  have hthree : 3 ≤ l.superblock.slots := l.slots_superblock.symm ▸ hslots
  have hcapacity : 3 ≤ l.superblock.dedupCapacity := Nat.le_trans hthree (l.slots_le_dedupCapacity hd)
  have hlt (t : Nat) (ht : t < 3) : t < l.superblock.slots := Nat.lt_of_lt_of_le ht hthree
  have hlt' (j : Nat) (hj : j < 3) : j < l.superblock.dedupCapacity := Nat.lt_of_lt_of_le hj hcapacity
  obtain ⟨v, -, hv⟩ := exists_format_blank l
  obtain ⟨v, hv⟩ := Runs.exists_shows (runs_writeKey hv (hlt 0 (by decide)) trivial)
  obtain ⟨v, hv⟩ := Runs.exists_shows (runs_writeData hv (hlt 0 (by decide)) trivial)
  obtain ⟨v, hv⟩ := Runs.exists_shows (runs_writeData hv (hlt 2 (by decide)) trivial)
  obtain ⟨v, hv⟩ := Runs.exists_shows (runs_writeShared hv (hlt' 0 (by decide)) trivial)
  obtain ⟨v, hv⟩ := Runs.exists_shows (runs_writeShared hv (hlt' 1 (by decide)) trivial)
  obtain ⟨v, hv⟩ := Runs.exists_shows (runs_writeShared hv (hlt' 2 (by decide)) trivial)
  exact ⟨v, _, hv⟩

/-- There is more than one content key. -/
theorem exists_key_ne (k : Key) : ∃ other, k ≠ other := by
  by_cases h : k = .zero
  · refine ⟨⟨bytesOf (List.replicate keySize 1), by decide⟩, ?_⟩
    rw [h]
    decide
  · exact ⟨.zero, h⟩

/-- **Any value can be lost between two repairs.** On every deduplicating layout with three slots, for every
key and every value, there is a device that a repair turns into a volume where the key has the value. But
if the repair is cut after some writes, and run again on what it has left, the value of the key is zeros. -/
theorem exists_value_lost {l : Layout} (hd : l.dedup) (hslots : 3 ≤ l.slots) (key : Key) (value : Block)
    (order order' : VisitOrder) :
    ∃ d : Device, d.Reliable ∧ Superblock.read d = .ok l.superblock ∧
      ∃ v report u k, mount false d = .ok v d ∧ checkVisiting order.visit true v = .ok report u ∧
        u.get key = .ok value ∧
        ∀ d' : Device, d'.Reliable → d'.image = v.cut u k →
          ∃ t again x, mount false d' = .ok t d' ∧ checkVisiting order'.visit true t = .ok again x ∧
            x.get key = .ok .zero := by
  obtain ⟨other, hne⟩ := exists_key_ne (contentHash value.bytes)
  obtain ⟨v, free, hv⟩ := exists_shows_usurped hd hslots key (contentHash value.bytes) other value
  have hthree : 3 ≤ l.superblock.slots := l.slots_superblock.symm ▸ hslots
  have hcapacity : 3 ≤ l.superblock.dedupCapacity := Nat.le_trans hthree (l.slots_le_dedupCapacity hd)
  have hr : v.device.Reliable := hv.reliable.2 trivial
  have hlost := value_lost hr (hv.read_eq trivial) order order'
    (hv.view.symm ▸ View.usurps_usurped hv.fits hthree hcapacity hne)
    (hv.view.symm ▸ (View.mem_logical_usurped (Nat.lt_of_lt_of_le (by decide) hthree)).2 rfl)
    (hv.view.symm ▸ View.pointer_usurped hv.fits hthree)
  rw [hv.view] at hlost
  exact ⟨v.device, hr, hv.read_eq trivial, hlost⟩

end Volume

end BlockStore
