import BlockStore.Proofs.Primitive

/-!
# Handing out slots

Three things say which slots are free: the bitmap on the device, the bitmap in memory and the free list.
A call changes all of them around one write, and the write may fail. Here is what stays true of them
without a volume around: for any bitmap, bits past the last slot included, wherever it lies on a device,
whichever writes fail, and for any calls, as long as nobody gives back a slot that is not in use.

Memory is changed before the write and changed back if it fails, so a call that fails has to leave bitmap
and free list as it found them. Nothing is asked of the slot that a call names: it need not exist.

## Main definitions

* `SlotCall`: a call; `SlotCall.run` makes it and `SlotCall.after` is where it leaves allocator and device.
* `Allocator.Mirrors`: the bitmap in memory is the one on the device, and the free list says the same.
* `SlotCall.Changes`, `SlotCall.Denied`: what a call that succeeds does, and why one fails.
* `Allocator.Reaches`: any calls, one after the other.
* `Allocator.handedOut`: the slots that a number of attempts to acquire one bring.

## Main results

* `Allocator.Mirrors.outcome`: what a call does, in four cases.
* `Allocator.Reaches.mirrors`: no sequence of calls brings the three apart.
* `Allocator.mirrors_after_read`: the contract of an allocator that was read from a device.
-/

namespace BlockStore

/-- A call of an allocator. -/
inductive SlotCall where
  /-- Take a free slot. -/
  | acquire
  /-- Give a slot back. -/
  | release (slot : Nat)
  /-- Mark a slot that turned out to be referenced. -/
  | markUsed (slot : Nat)

namespace Allocator

/-- Blocks of the bitmap of `slots` slots. -/
def bitmapBlocks (slots : Nat) : Nat := bitmapSize slots / blockSize

theorem bitmapBlocks_mul (slots : Nat) : bitmapBlocks slots * blockSize = bitmapSize slots := by
  simp only [bitmapBlocks, bitmapSize, paddedSize, blockSize]
  omega

theorem div_lt_bitmapBlocks_mul {s slots : Nat} (hs : s < slots) :
    s / 8 < bitmapBlocks slots * blockSize := by
  rw [bitmapBlocks_mul]
  simp only [bitmapSize, paddedSize, ceilDiv, blockSize]
  omega

/-- The bitmap of the allocator is the one that starts at a block of the device, inside of it, and the
free list has the slots whose bit is clear, each of them once. -/
structure Mirrors (a : Allocator) (start slots : Nat) (d : Device) : Prop where
  start_eq : a.start = start
  slots_eq : a.slots = slots
  bitmap_eq : a.bitmap = d.image.read start (bitmapBlocks slots)
  nodup : a.free.Nodup
  mem_free : ∀ {s}, s ∈ a.free ↔ s < slots ∧ testSlot a.bitmap s = false
  covers : d.Covers start (bitmapBlocks slots)
  size_lt : d.limit.isSome → d.size < 1 <<< 63

end Allocator

namespace SlotCall

variable {c : SlotCall} {a a' : Allocator} {d d' : Device} {start slots s : Nat} {e : StoreError}

/-- Makes the call, and tells which slot it was about. -/
def run : SlotCall → AllocatorM Nat
  | acquire => Allocator.acquire
  | release s => do
    Allocator.release s
    return s
  | markUsed s => do
    Allocator.markUsed s
    return s

/-- The allocator and the device after the call, whether it succeeds or not. -/
def after (c : SlotCall) (a : Allocator) (d : Device) : Allocator × Device :=
  match c.run (a, d) with
  | .ok _ s => s
  | .error _ s => s

/-- A slot of the volume is given back only while it is in use. -/
def Permitted : SlotCall → Allocator → Prop
  | release s, a => s < a.slots → a.isUsed s = true
  | _, _ => True

/-- The slot that the call is about, if there is one to take. -/
def slot? : SlotCall → (free : List Nat) → Option Nat
  | acquire, free => free.head?
  | release s, _ => some s
  | markUsed s, _ => some s

/-- The bit that the call gives its slot. -/
def bit : SlotCall → Bool
  | release _ => false
  | _ => true

/-- The free list after the call. -/
def freeAfter : SlotCall → (free : List Nat) → List Nat
  | acquire, free => free.tail
  | release s, free => s :: free
  | markUsed s, free => free.filter (· ≠ s)

/-- What a call does that succeeds: the bit of its slot has the value that belongs to the call, the free
list has changed, and the one block of the device that holds the bit was written. -/
structure Changes (c : SlotCall) (start s : Nat) (a a' : Allocator) (d d' : Device) : Prop where
  slot : c.slot? a.free = some s
  lt : s < a.slots
  free : a'.free = c.freeAfter a.free
  bit : testSlot a'.bitmap s = c.bit
  other_bits : ∀ t ≠ s, testSlot a'.bitmap t = testSlot a.bitmap t
  log : ∃ b : Block, d'.log = d.log.push ⟨start + s / 8 / blockSize, b.bytes⟩
  other_blocks : ∀ n ≠ start + s / 8 / blockSize, d'.image.block n = d.image.block n
  size : d'.size = d.size

/-- Why a call fails: there is no slot to take, the slot is not one of the volume, or it is planned that
the write fails. -/
inductive Denied (c : SlotCall) (start : Nat) (a : Allocator) (d : Device) : StoreError → Prop
  | noSpace (hslot : c.slot? a.free = none) : Denied c start a d .noSpace
  | outside {s : Nat} (hslot : c.slot? a.free = some s) (hs : a.slots ≤ s) :
      Denied c start a d (.slotState s .withinVolume)
  | writeFault {s : Nat} (hslot : c.slot? a.free = some s) (hs : s < a.slots)
      (hplan : d.faults.failsWrite d.attempted d.log.size (start + s / 8 / blockSize) 1 = true) :
      Denied c start a d (.device (.writeFault (start + s / 8 / blockSize)))

/-- What a call does, on a device where its bitmap starts at a block: it succeeds and changes one bit, or it
fails, and bitmap, free list and device are as before. -/
structure Conforms (c : SlotCall) (start : Nat) (a : Allocator) (d : Device) : Prop where
  done : ∀ {s a' d'}, c.run (a, d) = .ok s (a', d') → c.Changes start s a a' d d'
  denied : ∀ {e a' d'}, c.run (a, d) = .error e (a', d') →
    c.Denied start a d e ∧ a' = a ∧ d'.image = d.image ∧ d'.log = d.log

/-! ### One call -/

theorem free_of_assign {used : Bool} {b : Allocator} (h : a.assign s used d = .ok b d') :
    b.free = a.free := by
  unfold Allocator.assign at h
  split at h
  · simp only [bind, EStateM.bind] at h
    split at h
    · cases h
      rfl
    · cases h
  · cases h

/-- All calls are one: the bit of a slot changes and the free list with it, or the allocator is as
before. -/
theorem run_apply (hslot : c.slot? a.free = some s) : c.run (a, d) =
    match a.assign s c.bit d with
    | .ok b d' => .ok s ({ b with free := c.freeAfter a.free }, d')
    | .error e d' => .error e (a, d') := by
  cases c with
  | acquire =>
    obtain ⟨rest, hfree⟩ := List.head?_eq_some_iff.1 hslot
    simp only [run, Allocator.acquire_eq, Allocator.atomic, Allocator.take, hfree, bind, EStateM.bind, bit,
      freeAfter, List.tail_cons]
    cases a.assign s true d <;> rfl
  | release t =>
    obtain rfl : t = s := Option.some.inj hslot
    simp only [run, Allocator.release_eq, Allocator.atomic, Allocator.giveBack, bind, EStateM.bind, bit,
      freeAfter]
    cases h : a.assign t false d with
    | ok b d' => rw [← free_of_assign h]; rfl
    | error e d' => rfl
  | markUsed t =>
    obtain rfl : t = s := Option.some.inj hslot
    simp only [run, Allocator.markUsed_eq, Allocator.atomic, Allocator.mark, bind, EStateM.bind, bit,
      freeAfter]
    cases h : a.assign t true d with
    | ok b d' => rw [← free_of_assign h]; rfl
    | error e d' => rfl

/-- Only where a slot is to be taken can there be none. -/
theorem run_of_slot?_none (hslot : c.slot? a.free = none) : c.run (a, d) = .error .noSpace (a, d) := by
  cases c with
  | acquire =>
    have hfree : a.free = [] := List.head?_eq_none_iff.1 hslot
    simp only [run, Allocator.acquire_eq, Allocator.atomic, Allocator.take, hfree]
    rfl
  | release t => cases hslot
  | markUsed t => cases hslot

end SlotCall

namespace Allocator

variable {c : SlotCall} {a a' a₀ : Allocator} {d d' d₀ : Device} {start slots s : Nat}

/-- The allocator after a call about a slot. -/
def changed (c : SlotCall) (a : Allocator) (s : Nat) : Allocator :=
  { a with bitmap := assignSlot a.bitmap s c.bit, free := c.freeAfter a.free }

/-- The device after a call about a slot. -/
def rewritten (c : SlotCall) (a : Allocator) (s : Nat) (d : Device) : Device :=
  d.wrote (a.start + s / 8 / blockSize) (Volume.bitmapBlock (assignSlot a.bitmap s c.bit) s)

@[simp] theorem bitmap_changed : (a.changed c s).bitmap = assignSlot a.bitmap s c.bit := rfl

@[simp] theorem free_changed : (a.changed c s).free = c.freeAfter a.free := rfl

theorem image_rewritten : (a.rewritten c s d).image = d.image.write (a.start + s / 8 / blockSize)
    (Volume.bitmapBlock (assignSlot a.bitmap s c.bit) s).bytes := by
  rw [rewritten, Device.wrote]

theorem limit_rewritten : (a.rewritten c s d).limit = d.limit := by
  rw [rewritten, Device.wrote]

theorem log_rewritten : (a.rewritten c s d).log = d.log.push ⟨a.start + s / 8 / blockSize,
    (Volume.bitmapBlock (assignSlot a.bitmap s c.bit) s).bytes⟩ := by
  rw [rewritten, Device.wrote]

namespace Mirrors

theorem div_lt_size (h : a.Mirrors start slots d) (hs : s < slots) : s / 8 < a.bitmap.size := by
  rw [h.bitmap_eq, Image.size_read]
  exact div_lt_bitmapBlocks_mul hs

/-- The contents of the block that is written for a slot. -/
theorem bytes_bitmapBlock (h : a.Mirrors start slots d) (hs : s < slots) (used : Bool) :
    (Volume.bitmapBlock (assignSlot a.bitmap s used) s).bytes = (assignSlot a.bitmap s used).extract
      (s / 8 / blockSize * blockSize) ((s / 8 / blockSize + 1) * blockSize) := by
  have hsize := size_assignSlot a.bitmap s used
  refine Volume.bytes_bitmapBlock (n := bitmapBlocks slots) ?_ (hsize ▸ h.div_lt_size hs)
  rw [hsize, h.bitmap_eq, Image.size_read]

/-- The block with the bit of a slot lies inside the device. -/
theorem holds (h : a.Mirrors start slots d) (hs : s < slots) :
    d.Holds (a.start + s / 8 / blockSize) := by
  rw [h.start_eq]
  exact h.covers.holds ((Nat.div_lt_iff_lt_mul (by decide)).2 (div_lt_bitmapBlocks_mul hs))

/-- What a call about a slot of the volume does, as it is planned. -/
theorem run_eq_ite (h : a.Mirrors start slots d) (hslot : c.slot? a.free = some s) (hs : s < slots) :
    c.run (a, d) =
      if d.faults.failsWrite d.attempted d.log.size (a.start + s / 8 / blockSize) 1 then
        .error (.device (.writeFault (a.start + s / 8 / blockSize))) (a, d.tick)
      else .ok s (a.changed c s, a.rewritten c s d) := by
  rw [SlotCall.run_apply hslot,
    Volume.assign_apply (h.slots_eq ▸ hs) (h.bytes_bitmapBlock hs c.bit),
    (h.holds hs).writeBlock_eq_ite h.size_lt]
  by_cases hplan : d.faults.failsWrite d.attempted d.log.size (a.start + s / 8 / blockSize) 1 = true
  · rw [if_pos hplan, if_pos hplan]
  · rw [if_neg hplan, if_neg hplan]
    rfl

/-- A call about a slot of the volume goes through if the write does. -/
theorem run_eq_ok (h : a.Mirrors start slots d) (hslot : c.slot? a.free = some s) (hs : s < slots)
    (hplan : d.faults.failsWrite d.attempted d.log.size (a.start + s / 8 / blockSize) 1 = false) :
    c.run (a, d) = .ok s (a.changed c s, a.rewritten c s d) := by
  rw [h.run_eq_ite hslot hs, hplan]
  rfl

/-- A slot that is not one of the volume is refused. -/
theorem run_of_le (hslot : c.slot? a.free = some s) (hs : a.slots ≤ s) :
    c.run (a, d) = .error (.slotState s .withinVolume) (a, d) := by
  rw [SlotCall.run_apply hslot, assign, if_neg (Nat.not_lt.2 hs)]
  rfl

/-- The free list after a call about a slot of the volume. -/
theorem freeAfter (h : a.Mirrors start slots d) (hc : c.Permitted a) (hslot : c.slot? a.free = some s)
    (hs : s < slots) : (c.freeAfter a.free).Nodup ∧ ∀ t, t ∈ c.freeAfter a.free ↔
      t < slots ∧ (if t = s then c.bit else testSlot a.bitmap t) = false := by
  cases c with
  | acquire =>
    obtain ⟨rest, hfree⟩ := List.head?_eq_some_iff.1 hslot
    have hnodup := h.nodup
    rw [hfree, List.nodup_cons] at hnodup
    refine ⟨by rw [SlotCall.freeAfter, hfree]; exact hnodup.2, fun t => ?_⟩
    have hmem := h.mem_free (s := t)
    rw [hfree, List.mem_cons] at hmem
    rw [SlotCall.freeAfter, hfree, List.tail_cons]
    by_cases hts : t = s
    · subst hts
      simp [hnodup.1, SlotCall.bit]
    · rw [if_neg hts, ← hmem]
      simp [hts]
  | release r =>
    obtain rfl : r = s := Option.some.inj hslot
    have hused : testSlot a.bitmap r = true := by
      have := hc (h.slots_eq ▸ hs)
      simp only [isUsed, Bool.and_eq_true] at this
      exact this.2
    have hfresh : r ∉ a.free := fun hmem => by
      have hclear := (h.mem_free.1 hmem).2
      rw [hused] at hclear
      cases hclear
    refine ⟨List.nodup_cons.2 ⟨hfresh, h.nodup⟩, fun t => ?_⟩
    rw [SlotCall.freeAfter, List.mem_cons, h.mem_free]
    by_cases hts : t = r
    · subst hts
      simp [hs, SlotCall.bit]
    · simp [hts]
  | markUsed r =>
    obtain rfl : r = s := Option.some.inj hslot
    refine ⟨h.nodup.filter _, fun t => ?_⟩
    rw [SlotCall.freeAfter, List.mem_filter, h.mem_free]
    by_cases hts : t = r
    · subst hts
      simp [SlotCall.bit]
    · simp [hts]

/-- A call about a slot of the volume keeps what was said. -/
theorem changed (h : a.Mirrors start slots d) (hc : c.Permitted a) (hslot : c.slot? a.free = some s)
    (hs : s < slots) : (a.changed c s).Mirrors start slots (a.rewritten c s d) := by
  obtain ⟨hnodup, hmem⟩ := h.freeAfter hc hslot hs
  have hsize : (a.rewritten c s d).size = d.size := (h.holds hs).size_wrote _
  have hbytes := h.bytes_bitmapBlock hs c.bit
  refine ⟨h.start_eq, h.slots_eq, ?_, hnodup, fun {t} => ?_, h.covers.of_size_eq hsize, fun hg => ?_⟩
  · rw [bitmap_changed, image_rewritten, h.start_eq]
    rw [h.bitmap_eq] at hbytes ⊢
    exact (Image.read_write_assignSlot _ (div_lt_bitmapBlocks_mul hs) c.bit hbytes).symm
  · rw [free_changed, bitmap_changed, hmem, testSlot_assignSlot (h.div_lt_size hs)]
  · rw [limit_rewritten] at hg
    rw [hsize]
    exact h.size_lt hg

theorem tick (h : a.Mirrors start slots d) : a.Mirrors start slots d.tick :=
  ⟨h.start_eq, h.slots_eq, h.bitmap_eq, h.nodup, h.mem_free, h.covers.tick, h.size_lt⟩

/-- What a call changes that succeeds. -/
theorem changes (h : a.Mirrors start slots d) (hslot : c.slot? a.free = some s) (hs : s < slots) :
    c.Changes start s a (a.changed c s) d (a.rewritten c s d) := by
  have hbits := testSlot_assignSlot (h.div_lt_size hs) c.bit
  have hstart := h.start_eq
  refine ⟨hslot, h.slots_eq ▸ hs, rfl, ?_, fun t ht => ?_, ⟨Volume.bitmapBlock (assignSlot a.bitmap s c.bit) s, ?_⟩,
    fun n hn => ?_, (h.holds hs).size_wrote _⟩
  · exact (hbits s).trans (if_pos rfl)
  · exact (hbits t).trans (if_neg ht)
  · rw [log_rewritten, hstart]
  · rw [← hstart] at hn
    rw [image_rewritten]
    exact (Image.block_write_bytes _ _ _ _).trans (if_neg hn.symm)

end Mirrors

/-- What a call does where the allocator mirrors the device. -/
inductive Outcome (c : SlotCall) (start slots : Nat) (a : Allocator) (d : Device) : Prop
  /-- It goes through. -/
  | done {s : Nat} (hrun : c.run (a, d) = .ok s (a.changed c s, a.rewritten c s d))
      (hchanges : c.Changes start s a (a.changed c s) d (a.rewritten c s d))
      (hmirrors : c.Permitted a → (a.changed c s).Mirrors start slots (a.rewritten c s d))
  /-- It is denied, and nothing has changed. -/
  | denied {e : StoreError} {d' : Device} (hrun : c.run (a, d) = .error e (a, d'))
      (hdenied : c.Denied start a d e) (hd' : d' = d ∨ d' = d.tick)

theorem Mirrors.outcome (h : a.Mirrors start slots d) (c : SlotCall) : Outcome c start slots a d := by
  cases hslot : c.slot? a.free with
  | none => exact .denied (SlotCall.run_of_slot?_none hslot) (.noSpace hslot) (.inl rfl)
  | some s =>
    rcases Nat.lt_or_ge s slots with hs | hs
    · have hrun := h.run_eq_ite hslot hs
      by_cases hplan : d.faults.failsWrite d.attempted d.log.size (a.start + s / 8 / blockSize) 1 = true
      · rw [if_pos hplan] at hrun
        rw [h.start_eq] at hrun hplan
        exact .denied hrun (.writeFault hslot (h.slots_eq ▸ hs) hplan) (.inr rfl)
      · rw [if_neg hplan] at hrun
        exact .done hrun (h.changes hslot hs) fun hc => h.changed hc hslot hs
    · have hle : a.slots ≤ s := h.slots_eq ▸ hs
      exact .denied (Mirrors.run_of_le hslot hle) (.outside hslot hle) (.inl rfl)

/-- Every call of an allocator that mirrors its device does what it should. -/
theorem Mirrors.conforms (h : a.Mirrors start slots d) (c : SlotCall) : c.Conforms start a d := by
  have hout := h.outcome c
  constructor
  · intro s a' d' hrun
    cases hout with
    | done hdone hchanges _ =>
      rw [hrun] at hdone
      cases hdone
      exact hchanges
    | denied hdenied _ _ =>
      rw [hrun] at hdenied
      cases hdenied
  · intro e a' d' hrun
    cases hout with
    | done hdone _ _ =>
      rw [hrun] at hdone
      cases hdone
    | denied hdenied hwhy hd' =>
      rw [hrun] at hdenied
      cases hdenied
      rcases hd' with rfl | rfl
      · exact ⟨hwhy, rfl, rfl, rfl⟩
      · exact ⟨hwhy, rfl, rfl, rfl⟩

/-- The slots in use are those that are not on the free list. -/
theorem Mirrors.isUsed_iff (h : a.Mirrors start slots d) (hs : s < slots) :
    a.isUsed s = true ↔ s ∉ a.free := by
  rw [isUsed, h.slots_eq, h.mem_free]
  simp [hs]

/-- No slot is left exactly when every slot is in use. -/
theorem Mirrors.free_eq_nil_iff (h : a.Mirrors start slots d) :
    a.free = [] ↔ ∀ s < slots, a.isUsed s = true := by
  rw [List.eq_nil_iff_forall_not_mem]
  constructor
  · exact fun hnil s hs => (h.isUsed_iff hs).2 (hnil s)
  · intro hall s hmem
    have hs := (h.mem_free.1 hmem).1
    exact (h.isUsed_iff hs).1 (hall s hs) hmem

theorem Mirrors.acquire_eq_noSpace_iff (h : a.Mirrors start slots d) :
    (∃ s', acquire (a, d) = .error .noSpace s') ↔ ∀ s < slots, a.isUsed s = true := by
  rw [← h.free_eq_nil_iff]
  constructor
  · rintro ⟨⟨a', d'⟩, hrun⟩
    obtain ⟨hdenied, -⟩ := (h.conforms .acquire).denied hrun
    cases hdenied with
    | noSpace hslot => exact List.head?_eq_none_iff.1 hslot
  · intro hnil
    exact ⟨(a, d), SlotCall.run_of_slot?_none (c := .acquire) (by rw [hnil]; rfl)⟩

theorem release_of_run {s' : Allocator × Device} (h : (SlotCall.release s).run (a, d) = .ok s s') :
    release s (a, d) = .ok () s' := by
  simp only [SlotCall.run, bind, EStateM.bind] at h
  cases hrelease : release s (a, d) with
  | ok _ t =>
    rw [hrelease] at h
    cases h
    rfl
  | error e t =>
    rw [hrelease] at h
    cases h

/-! ### Many calls -/

/-- The allocator and the device are where calls have brought them, each of them permitted. -/
inductive Reaches (a₀ : Allocator) (d₀ : Device) : Allocator → Device → Prop
  | refl : Reaches a₀ d₀ a₀ d₀
  | call {a : Allocator} {d : Device} (h : Reaches a₀ d₀ a d) (c : SlotCall) (hc : c.Permitted a) :
      Reaches a₀ d₀ (c.after a d).1 (c.after a d).2

theorem Mirrors.after (h : a.Mirrors start slots d) (c : SlotCall) (hc : c.Permitted a) :
    (c.after a d).1.Mirrors start slots (c.after a d).2 := by
  rw [SlotCall.after]
  cases h.outcome c with
  | done hrun _ hmirrors =>
    rw [hrun]
    exact hmirrors hc
  | denied hrun _ hd' =>
    rw [hrun]
    rcases hd' with rfl | rfl
    · exact h
    · exact h.tick

/-- No sequence of calls brings bitmap, free list and device apart. -/
theorem Reaches.mirrors (h₀ : a₀.Mirrors start slots d₀) (h : Reaches a₀ d₀ a d) :
    a.Mirrors start slots d := by
  induction h with
  | refl => exact h₀
  | call _ c hc ih => exact ih.after c hc

/-- A call that goes through leads on. -/
theorem Reaches.done (hreach : Reaches a₀ d₀ a d) (h : a.Mirrors start slots d) (hc : c.Permitted a)
    (hslot : c.slot? a.free = some s) (hs : s < slots)
    (hplan : d.faults.failsWrite d.attempted d.log.size (a.start + s / 8 / blockSize) 1 = false) :
    ∃ a' d', c.after a d = (a', d') ∧ Reaches a₀ d₀ a' d' ∧ a'.Mirrors start slots d' ∧
      a'.free = c.freeAfter a.free ∧ d'.faults = d.faults ∧ d'.attempted = d.attempted + 1 ∧
      d'.log.size = d.log.size + 1 := by
  have hafter : c.after a d = (a.changed c s, a.rewritten c s d) := by
    rw [SlotCall.after, h.run_eq_ok hslot hs hplan]
  have hcall := hreach.call c hc
  rw [hafter] at hcall
  refine ⟨_, _, hafter, hcall, h.changed hc hslot hs, rfl, ?_, ?_, ?_⟩
  · rw [rewritten, Device.wrote]
  · rw [rewritten, Device.wrote]
  · rw [log_rewritten, Array.size_push]

/-- The slots that `n` attempts to acquire one bring, in order. -/
def handedOut : Nat → Allocator → Device → List Nat
  | 0, _, _ => []
  | n + 1, a, d =>
    match acquire (a, d) with
    | .ok s (a, d) => s :: handedOut n a d
    | .error _ (a, d) => handedOut n a d

/-- Attempts to acquire slots bring those of a list, in its order: as many as succeed, and all of them
where nothing fails. -/
structure HandsOut (a : Allocator) (d : Device) (l : List Nat) : Prop where
  isPrefix : ∀ n, handedOut n a d <+: l
  all : d.Reliable → ∀ n, handedOut n a d = l.take n

/-- An attempt to acquire a slot takes the head of the free list, or none. -/
theorem Mirrors.acquire_cases (h : a.Mirrors start slots d) :
    (∃ s a' d', acquire (a, d) = .ok s (a', d') ∧ a.free = s :: a'.free ∧ a'.Mirrors start slots d' ∧
      (d.Reliable → d'.Reliable)) ∨
    ∃ e d', acquire (a, d) = .error e (a, d') ∧ a.Mirrors start slots d' ∧
      (d.Reliable → d'.Reliable ∧ a.free = []) := by
  cases h.outcome .acquire with
  | @done s hrun hchanges hmirrors =>
    obtain ⟨rest, hfree⟩ := List.head?_eq_some_iff.1 hchanges.slot
    have hs : s < slots := h.slots_eq ▸ hchanges.lt
    refine .inl ⟨s, _, _, hrun, ?_, hmirrors trivial, ((h.holds hs).reliable_wrote _).2⟩
    rw [free_changed, SlotCall.freeAfter, hfree, List.tail_cons]
  | @denied e d' hrun hdenied hd' =>
    have hkept : a.Mirrors start slots d' ∧ (d.Reliable → d'.Reliable) := by
      rcases hd' with rfl | rfl
      · exact ⟨h, id⟩
      · exact ⟨h.tick, Device.reliable_tick.2⟩
    refine .inr ⟨e, d', hrun, hkept.1, fun hr => ⟨hkept.2 hr, ?_⟩⟩
    cases hdenied with
    | noSpace hslot => exact List.head?_eq_none_iff.1 hslot
    | @outside s hslot hs =>
      obtain ⟨rest, hfree⟩ := List.head?_eq_some_iff.1 hslot
      have hlt := (h.mem_free.1 (hfree ▸ List.mem_cons_self)).1
      rw [← h.slots_eq] at hlt
      exact absurd hlt (Nat.not_lt.2 hs)
    | writeFault _ _ hplan =>
      rw [hr.faults] at hplan
      cases hplan

/-- The slots of the free list are handed out in its order. -/
theorem Mirrors.handsOut (h : a.Mirrors start slots d) : a.HandsOut d a.free := by
  constructor
  · intro n
    induction n generalizing a d with
    | zero => exact List.nil_prefix
    | succ n ih =>
      rw [handedOut]
      rcases h.acquire_cases with ⟨s, a', d', hrun, hfree, ha', -⟩ | ⟨e, d', hrun, ha, -⟩
      · rw [hrun, hfree]
        exact List.cons_prefix_cons.2 ⟨rfl, ih ha'⟩
      · rw [hrun]
        exact ih ha
  · intro hr n
    induction n generalizing a d with
    | zero => rfl
    | succ n ih =>
      rw [handedOut]
      rcases h.acquire_cases with ⟨s, a', d', hrun, hfree, ha', hr'⟩ | ⟨e, d', hrun, ha, hnil⟩
      · rw [hrun, hfree]
        exact congrArg (s :: ·) (ih ha' (hr' hr))
      · have hrest := ih ha (hnil hr).1
        rw [(hnil hr).2, List.take_nil] at hrest ⊢
        rw [hrun]
        exact hrest

/-- The allocator of a bitmap that is inside the device, and can be read. -/
theorem mirrors_read (hcovers : d.Covers start (bitmapBlocks slots))
    (hlen : d.limit.isSome → d.size < 1 <<< 63)
    (hread : d.faults.failsRead d.attempted d.log.size start (bitmapBlocks slots) = false) :
    ∃ a, read d (start * blockSize) slots = .ok a ∧ a.Mirrors start slots d ∧
      a.free = (List.range slots).filter fun s =>
        !testSlot (d.image.read start (bitmapBlocks slots)) s := by
  have hstart : start * blockSize / blockSize = start := Nat.mul_div_cancel _ (by decide)
  have hbitmap : fit (d.image.read start (bitmapBlocks slots)) (bitmapSize slots) =
      d.image.read start (bitmapBlocks slots) :=
    fit_of_size_eq ((Image.size_read _ _ _).trans (bitmapBlocks_mul slots))
  have hok : d.read start (bitmapBlocks slots) = .ok (d.image.read start (bitmapBlocks slots)) := by
    simp [Device.read, hcovers.checkRead_eq hlen, hread, bind, Except.bind, pure, Except.pure]
  refine ⟨load (start * blockSize) (d.image.read start (bitmapBlocks slots)) slots, ?_, ?_, ?_⟩
  · rw [read, hstart, ← bitmapBlocks, hok]
  · rw [load, hbitmap, hstart]
    refine ⟨rfl, rfl, rfl, List.nodup_range.filter _, fun {s} => ?_, hcovers, hlen⟩
    simp
  · rw [load, hbitmap]

/-- **Bitmap, free list and device stay together.** An allocator that was read from a bitmap inside the
device hands the free slots out in ascending order. Whatever calls are made of it, as long as no slot is
given back that is not in use, and whichever writes fail: its bitmap is the one on the device and its
free list has the slots whose bit is clear, each once; every call either changes its bit and the block
with it, or fails and leaves bitmap, free list and device as they were; no slot is to be had exactly when
all are in use; and a slot that was given back is the next one. -/
theorem mirrors_after_read (hcovers : d.Covers start (bitmapBlocks slots))
    (hlen : d.limit.isSome → d.size < 1 <<< 63)
    (hread : d.faults.failsRead d.attempted d.log.size start (bitmapBlocks slots) = false) :
    ∃ a₀, read d (start * blockSize) slots = .ok a₀ ∧
      a₀.HandsOut d ((List.range slots).filter fun s =>
        !testSlot (d.image.read start (bitmapBlocks slots)) s) ∧
      ∀ a e, Reaches a₀ d a e →
        a.Mirrors start slots e ∧
        (∀ c, SlotCall.Conforms c start a e) ∧
        ((∃ s', acquire (a, e) = .error .noSpace s') ↔ ∀ s < slots, a.isUsed s = true) ∧
        ∀ s b u, a.isUsed s = true → release s (a, e) = .ok () (b, u) → b.HandsOut u (s :: a.free) := by
  obtain ⟨a₀, hok, h₀, hfree⟩ := mirrors_read hcovers hlen hread
  refine ⟨a₀, hok, hfree ▸ h₀.handsOut, fun a e hreach => ?_⟩
  have h := hreach.mirrors h₀
  refine ⟨h, h.conforms, h.acquire_eq_noSpace_iff, fun s b u hused hrelease => ?_⟩
  have hrun : (SlotCall.release s).run (a, e) = .ok s (b, u) := by
    simp only [SlotCall.run, bind, EStateM.bind, hrelease]
    rfl
  have hb := h.after (.release s) fun _ => hused
  have hchanges := (h.conforms (.release s)).done hrun
  rw [SlotCall.after, hrun] at hb
  have hout := hb.handsOut
  rw [hchanges.free] at hout
  exact hout

/-- Of ten slots none is in use, and the first write fails. One attempt to take a slot fails, then slots 0
and 1 are taken, slot 0 is given back, and a slot that does not exist is not marked. Slot 1 is given back
then: it is the next one, followed by slot 0 and those that were never taken. -/
theorem mirrors_ten_slots :
    ∃ (d : Device) (a₀ a b : Allocator) (e u : Device),
      d.faults.failsWrite = (fun attempted _ _ _ => attempted == 0) ∧
      read d (1 * blockSize) 10 = .ok a₀ ∧
      [.acquire, .acquire, .acquire, .release 0, .markUsed 12].foldl
        (fun (a, d) (c : SlotCall) => c.after a d) (a₀, d) = (a, e) ∧
      e.log.size = 3 ∧ a.Mirrors 1 10 e ∧ a.isUsed 1 = true ∧
      release 1 (a, e) = .ok () (b, u) ∧ b.HandsOut u [1, 0, 2, 3, 4, 5, 6, 7, 8, 9] := by
  obtain ⟨d, hd⟩ : ∃ d : Device, d = {
      image := .blank (2 * blockSize)
      faults := ⟨fun _ _ _ _ => false, fun attempted _ _ _ => attempted == 0⟩ } := ⟨_, rfl⟩
  have hcovers : d.Covers 1 (bitmapBlocks 10) := by
    subst hd
    constructor
    · exact Nat.le_refl _
    · decide
  have hplan : d.faults.failsWrite = fun attempted _ _ _ => attempted == 0 := by rw [hd]
  obtain ⟨a₀, hok, -, hall⟩ := mirrors_after_read hcovers (by simp [hd]) (by simp [hd])
  obtain ⟨_, hok', h₀, hfree₀⟩ := mirrors_read hcovers (by simp [hd]) (by simp [hd])
  obtain rfl := Except.ok.inj (hok.symm.trans hok')
  have hfree₀ : a₀.free = [0, 1, 2, 3, 4, 5, 6, 7, 8, 9] := by
    rw [hfree₀, hd]
    decide +kernel
  have hdenied : SlotCall.acquire.after a₀ d = (a₀, d.tick) := by
    rw [SlotCall.after, h₀.run_eq_ite (s := 0) (by rw [hfree₀]; rfl) (by decide), hd]
    rfl
  have hreach₀ : Reaches a₀ d a₀ d.tick := by
    have hcall : Reaches a₀ d _ _ := Reaches.refl.call .acquire trivial
    rwa [hdenied] at hcall
  have hcount : d.tick.attempted = 1 ∧ d.tick.log.size = 0 := by
    rw [hd]
    exact ⟨rfl, rfl⟩
  have htick : d.tick.faults.failsWrite = fun attempted _ _ _ => attempted == 0 := hplan
  obtain ⟨a₁, d₁, htake₁, hreach₁, h₁, hfree₁, hfaults₁, hattempted₁, hlog₁⟩ :=
    hreach₀.done (c := .acquire) (s := 0) h₀.tick trivial (by rw [hfree₀]; rfl) (by decide)
      (by simp [htick, hcount])
  simp only [hfree₀, SlotCall.freeAfter, List.tail_cons] at hfree₁
  obtain ⟨a₂, d₂, htake₂, hreach₂, h₂, hfree₂, hfaults₂, hattempted₂, hlog₂⟩ :=
    hreach₁.done (c := .acquire) (s := 1) h₁ trivial (by rw [hfree₁]; rfl) (by decide)
      (by simp [hfaults₁, hattempted₁, htick])
  simp only [hfree₁, SlotCall.freeAfter, List.tail_cons] at hfree₂
  obtain ⟨a₃, d₃, hback, hreach₃, h₃, hfree₃, hfaults₃, hattempted₃, hlog₃⟩ :=
    hreach₂.done (c := .release 0) (s := 0) h₂
      (fun _ => (h₂.isUsed_iff (by decide)).2 (by simp [hfree₂])) rfl (by decide)
      (by simp [hfaults₂, hattempted₂, hfaults₁, htick])
  simp only [hfree₂, SlotCall.freeAfter] at hfree₃
  have houtside : (SlotCall.markUsed 12).after a₃ d₃ = (a₃, d₃) := by
    rw [SlotCall.after, Mirrors.run_of_le rfl (h₃.slots_eq ▸ (by decide : 10 ≤ 12))]
  have hused : a₃.isUsed 1 = true := (h₃.isUsed_iff (by decide)).2 (by simp [hfree₃])
  have hrelease := h₃.run_eq_ok (c := .release 1) (s := 1) rfl (by decide)
    (by simp [hfaults₃, hattempted₃, hfaults₂, hfaults₁, htick])
  obtain ⟨hmirrors, -, -, hnext⟩ := hall a₃ d₃ hreach₃
  have hrelease : release 1 (a₃, d₃) = .ok () (a₃.changed (.release 1) 1, a₃.rewritten (.release 1) 1 d₃) :=
    release_of_run hrelease
  refine ⟨d, a₀, a₃, _, d₃, _, hplan, hok, ?_, ?_, hmirrors, hused, hrelease, ?_⟩
  · simp only [List.foldl_cons, List.foldl_nil, hdenied, htake₁, htake₂, hback, houtside]
  · rw [hlog₃, hlog₂, hlog₁, hcount.2]
  · rw [← hfree₃]
    exact hnext 1 _ _ hused hrelease

end Allocator

end BlockStore
