import BlockStore.Proofs.Format
import BlockStore.Proofs.Operations
import BlockStore.Proofs.Queries

/-!
# A volume is a map

Without faults a freshly formatted volume cannot be told from a map of keys to blocks: every answer that
it gives, to any sequence of calls, is one that the map gives. All that shows of slots is how many are
free. On a deduplicating volume that takes a content hash without collisions among the blocks that are
stored, and a reference count that is at its limit shows as well.

## Main definitions

* `Call`, `Reply`: what a user asks and is told; `Call.run` asks a volume.
* `KeyMap.Answers`: what a map answers to a call, and the map after it.
* `Volume.Conforms`: a volume answers a sequence of calls as a map does.
* `Volume.Represents`: a sound volume and the map that it stores.

## Main results

* `Volume.Represents.step`: one call.
* `Volume.conforms_of_format`: all calls after formatting.
-/

namespace BlockStore

/-- What a user asks of a volume. -/
inductive Call where
  | create (key : Key) (now : Timestamp)
  | put (key : Key) (data : ByteArray) (created stored : Timestamp)
  | remove (key : Key)
  | rename (old new : Key)
  | get (key : Key)
  | contains (key : Key)
  | list

/-- What a user is told when nothing is wrong. -/
inductive Reply where
  | done
  | value (b : Block)
  | found (b : Bool)
  | keys (ks : List Key)

namespace Call

/-- Asks a volume. -/
def run : Call → VolumeM Reply
  | create key now => do
    let _ ← Volume.create key now
    return .done
  | put key data created stored => do
    let _ ← Volume.put key data created stored
    return .done
  | remove key => do
    Volume.remove key
    return .done
  | rename old new => do
    Volume.rename old new
    return .done
  | get key => query fun v => (v.get key).map .value
  | contains key => query fun v => (v.contains key).map .found
  | list => query fun v => v.list.map .keys

/-- The answer of a volume. -/
def reply (c : Call) (v : Volume) : Except StoreError Reply :=
  match c.run v with
  | .ok a _ => .ok a
  | .error e _ => .error e

/-- The volume after it has answered. -/
def after (c : Call) (v : Volume) : Volume :=
  match c.run v with
  | .ok _ u => u
  | .error _ u => u

/-- The blocks that calls ask to store. -/
def blocks : List Call → List Block
  | [] => []
  | put _ data _ _ :: cs =>
    if data.size ≤ blockSize then .ofBytes data :: blocks cs else blocks cs
  | _ :: cs => blocks cs

end Call

namespace KeyMap

/-- As many keys as a reference count can count have this value. -/
def Crowded (M : KeyMap) (b : Block) : Prop :=
  ∃ ks : List Key, ks.Nodup ∧ ks.length = 65535 ∧ ∀ k ∈ ks, M k = some b

/-- What the map `M` answers to a call when `free` slots are free, and the map `M'` after it. -/
def Answers (dedup : Bool) (M : KeyMap) (free : Nat) :
    Call → (reply : Except StoreError Reply) → (M' : KeyMap) → Prop
  | .create key _, reply, M' =>
    if M key ≠ none then reply = .error (.keyExists key) ∧ M' = M
    else if free = 0 then reply = .error .noSpace ∧ M' = M
    else reply = .ok .done ∧ M' = M.insert key .zero
  | .put key data _ _, reply, M' =>
    if blockSize < data.size then reply = .error (.valueTooLarge data.size) ∧ M' = M
    else if free < Volume.slotsNeeded dedup M key then reply = .error .noSpace ∧ M' = M
    else reply = .ok .done ∧ M' = M.insert key (.ofBytes data) ∨
      dedup ∧ M.Crowded (.ofBytes data) ∧ (∃ b, reply = .error (.refcountSaturated b)) ∧ M' = M
  | .remove key, reply, M' =>
    if M key = none then reply = .error (.notFound (.key key)) ∧ M' = M
    else reply = .ok .done ∧ M' = M.erase key
  | .rename old new, reply, M' =>
    if M old = none then reply = .error (.notFound (.key old)) ∧ M' = M
    else if old = new then reply = .ok .done ∧ M' = M
    else if M new ≠ none then reply = .error (.keyExists new) ∧ M' = M
    else reply = .ok .done ∧ M' = M.move old new
  | .get key, reply, M' =>
    (match M key with
      | some b => reply = .ok (.value b)
      | none => reply = .error (.notFound (.key key))) ∧ M' = M
  | .contains key, reply, M' => reply = .ok (.found (M key).isSome) ∧ M' = M
  | .list, reply, M' =>
    (∃ ks, reply = .ok (.keys ks) ∧ ks.Nodup ∧ ∀ k, k ∈ ks ↔ M k ≠ none) ∧ M' = M

end KeyMap

namespace View

variable {sb : Superblock} {P : Block → Prop} {σ : Nat → Nat} {w : View}

/-- A count at its limit that is exact means as many keys with the block as value. -/
theorem Sound.crowded {length i : Nat} (hfits : sb.Fits length) (hd : sb.isDedup)
    (h : w.Sound sb P fun _ => 0) (hi : w.Held i) (hcount : (w.shared i).refCount.toNat = 65535)
    {b : Block} (hb : ∀ t, (w.shared i).block = sb.dataBlock t → w.data t = b) :
    (w.contents sb).Crowded b := by
  obtain ⟨t, ht, hblock, -⟩ := h.home hi
  refine ⟨((List.range sb.slots).filter fun s =>
    decide (w.Active s ∧ w.pointer s = (w.shared i).block)).map fun s => (w.keys s).key, ?_, ?_, ?_⟩
  · refine List.pairwise_map.2 (List.Pairwise.imp_of_mem ?_ (List.nodup_range.filter _))
    intro s u hs hu hsu hkey
    have hs := of_decide_eq_true (List.mem_filter.1 hs).2
    have hu := of_decide_eq_true (List.mem_filter.1 hu).2
    exact hsu (h.unique hs.1 hu.1 hkey)
  · have hrefs := (h.counted hi).2
    rw [List.length_map, ← List.countP_eq_length_filter]
    rw [refs] at hrefs
    omega
  · intro k hk
    obtain ⟨s, hs, rfl⟩ := List.mem_map.1 hk
    obtain ⟨hactive, hpointer⟩ := of_decide_eq_true (List.mem_filter.1 hs).2
    rw [h.contents_of_active hactive, value_of_pointer_eq hd hfits ht (hpointer.trans hblock),
      hb t hblock]

end View

namespace Volume

/-- The volume answers the calls as the map does. -/
def Conforms (dedup : Bool) : KeyMap → Volume → List Call → Prop
  | _, _, [] => True
  | M, v, c :: cs =>
    ∃ M', M.Answers dedup v.freeCount c (c.reply v) M' ∧ Conforms dedup M' (c.after v) cs

/-- The volume is sound, its counts are exact, its device is reliable, and it stores the map. -/
def Represents (sb : Superblock) (P : Block → Prop) (v : Volume) (M : KeyMap) : Prop :=
  ∃ w free, v.Shows sb True w free ∧ w.Sound sb P (fun _ => 0) ∧ w.contents sb = M

variable {sb : Superblock} {P : Block → Prop} {v : Volume} {M : KeyMap}

/-- A call that does its work as an action and then says that it is done. -/
theorem reply_of_ok {c : Call} {α : Type} {act : VolumeM α} {a : α} {u : Volume}
    (hc : c.run = do
      let _ ← act
      return .done) (h : act v = .ok a u) : c.reply v = .ok .done ∧ c.after v = u := by
  have hrun : c.run v = .ok .done u := by
    rw [hc]
    simp only [bind, EStateM.bind, h]
    rfl
  rw [Call.reply, Call.after, hrun]
  exact ⟨rfl, rfl⟩

theorem reply_of_error {c : Call} {α : Type} {act : VolumeM α} {e : StoreError} {u : Volume}
    (hc : c.run = do
      let _ ← act
      return .done) (h : act v = .error e u) : c.reply v = .error e ∧ c.after v = u := by
  have hrun : c.run v = .error e u := by
    rw [hc]
    simp only [bind, EStateM.bind, h]
  rw [Call.reply, Call.after, hrun]
  exact ⟨rfl, rfl⟩

theorem reply_of_query (v : Volume) {f : Volume → Except StoreError Reply} {c : Call}
    (hc : c.run = query f) : c.reply v = f v ∧ c.after v = v := by
  rw [Call.reply, Call.after, hc]
  unfold query
  cases f v <;> exact ⟨rfl, rfl⟩

theorem Represents.create (h : Represents sb P v M) (key : Key) (now : Timestamp) :
    ∃ M', M.Answers sb.isDedup v.freeCount (.create key now) ((Call.create key now).reply v) M' ∧
      Represents sb P ((Call.create key now).after v) M' := by
  obtain ⟨w, free, hv, hw, rfl⟩ := h
  have hc : (Call.create key now).run = do
      let _ ← Volume.create key now
      return .done := rfl
  rcases (runs_create hv hw key now).result with
    ⟨s, u, hrun, -, hnew, rest, hfree, hu⟩ | ⟨e, u, hrun, -, he⟩
  · obtain ⟨hreply, hafter⟩ := reply_of_ok hc hrun
    obtain ⟨hs, hclear⟩ := hv.mem_free.1 (hfree ▸ List.mem_cons_self)
    rw [hreply, hafter]
    refine ⟨(w.contents sb).insert key .zero, ?_, _, _, hu, hw.created hv.fits hs hclear hnew now,
      hw.contents_created hv.fits hs hclear hnew now⟩
    have hroom : v.freeCount ≠ 0 := by
      rw [hv.freeCount_eq, hfree]
      exact Nat.succ_ne_zero _
    rw [KeyMap.Answers, if_neg (not_not_intro hnew), if_neg hroom]
    exact ⟨rfl, rfl⟩
  · obtain ⟨hreply, hafter⟩ := reply_of_error hc hrun
    obtain ⟨hu, hwhy⟩ := he.2 trivial
    rw [hreply, hafter]
    refine ⟨w.contents sb, ?_, w, free, hu, hw, rfl⟩
    rcases hwhy with ⟨rfl, hsome⟩ | ⟨rfl, rfl, hnew⟩
    · rw [KeyMap.Answers, if_pos hsome]
      exact ⟨rfl, rfl⟩
    · rw [KeyMap.Answers, if_neg (not_not_intro hnew), if_pos (hv.freeCount_eq.trans List.length_nil)]
      exact ⟨rfl, rfl⟩

theorem Represents.remove (h : Represents sb P v M) (key : Key) :
    ∃ M', M.Answers sb.isDedup v.freeCount (.remove key) ((Call.remove key).reply v) M' ∧
      Represents sb P ((Call.remove key).after v) M' := by
  obtain ⟨w, free, hv, hw, rfl⟩ := h
  have hc : (Call.remove key).run = do
      let _ ← Volume.remove key
      return .done := rfl
  rcases (runs_remove hv hw key).result with
    ⟨_, u, hrun, -, hold, w', free', hu, hw', hmap, -⟩ | ⟨e, u, hrun, -, he⟩
  · obtain ⟨hreply, hafter⟩ := reply_of_ok hc hrun
    rw [hreply, hafter]
    refine ⟨_, ?_, w', free', hu, hw', hmap⟩
    rw [KeyMap.Answers, if_neg hold]
    exact ⟨rfl, rfl⟩
  · obtain ⟨hreply, hafter⟩ := reply_of_error hc hrun
    obtain ⟨hu, rfl, hnone⟩ := he trivial
    rw [hreply, hafter]
    refine ⟨w.contents sb, ?_, w, free, hu, hw, rfl⟩
    rw [KeyMap.Answers, if_pos hnone]
    exact ⟨rfl, rfl⟩

theorem Represents.rename (h : Represents sb P v M) (old new : Key) :
    ∃ M', M.Answers sb.isDedup v.freeCount (.rename old new) ((Call.rename old new).reply v) M' ∧
      Represents sb P ((Call.rename old new).after v) M' := by
  obtain ⟨w, free, hv, hw, rfl⟩ := h
  have hc : (Call.rename old new).run = do
      let _ ← Volume.rename old new
      return .done := rfl
  rcases (runs_rename hv hw old new).result with
    ⟨_, u, hrun, -, hold, hnew, w', hu, hw', hmap, -⟩ | ⟨e, u, hrun, -, he⟩
  · obtain ⟨hreply, hafter⟩ := reply_of_ok hc hrun
    rw [hreply, hafter]
    refine ⟨_, ?_, w', free, hu, hw', hmap⟩
    rw [KeyMap.Answers, if_neg hold]
    by_cases hne : old = new
    · rw [if_pos hne, if_pos hne]
      exact ⟨rfl, rfl⟩
    · rw [if_neg hne, if_neg hne, if_neg (not_not_intro (hnew hne))]
      exact ⟨rfl, rfl⟩
  · obtain ⟨hreply, hafter⟩ := reply_of_error hc hrun
    obtain ⟨hu, hwhy⟩ := he trivial
    rw [hreply, hafter]
    refine ⟨w.contents sb, ?_, w, free, hu, hw, rfl⟩
    rcases hwhy with ⟨rfl, hnone⟩ | ⟨rfl, hne, hold, hnew⟩
    · rw [KeyMap.Answers, if_pos hnone]
      exact ⟨rfl, rfl⟩
    · rw [KeyMap.Answers, if_neg hold, if_neg hne, if_pos hnew]
      exact ⟨rfl, rfl⟩

theorem Represents.put (h : Represents sb P v M) (hP : sb.isDedup → Distinct P)
    (hcap : sb.isDedup → sb.slots ≤ sb.dedupCapacity) (key : Key) (data : ByteArray)
    (hdata : data.size ≤ blockSize → P (.ofBytes data)) (created stored : Timestamp) :
    ∃ M', M.Answers sb.isDedup v.freeCount (.put key data created stored)
        ((Call.put key data created stored).reply v) M' ∧
      Represents sb P ((Call.put key data created stored).after v) M' := by
  obtain ⟨w, free, hv, hw, rfl⟩ := h
  have hfree := hv.freeCount_eq
  have hc : (Call.put key data created stored).run = do
      let _ ← Volume.put key data created stored
      return .done := rfl
  rcases (runs_put hv hw key data hdata created stored).result with
    ⟨s, u, hrun, -, hle, hroom, w', free', τ, b', hu, hw', hτ, halike, hmap, -⟩ |
    ⟨e, u, hrun, -, he⟩
  · obtain ⟨hreply, hafter⟩ := reply_of_ok hc hrun
    obtain rfl := eq_of_alike hP (hdata hle) halike
    obtain rfl : τ = fun _ => 0 := funext fun x => Nat.le_zero.1 (hτ x)
    rw [hreply, hafter]
    refine ⟨_, ?_, w', free', hu, hw', hmap⟩
    rw [KeyMap.Answers, if_neg (Nat.not_lt.2 hle), hfree, if_neg (Nat.not_lt.2 hroom)]
    exact .inl ⟨rfl, rfl⟩
  · obtain ⟨hreply, hafter⟩ := reply_of_error hc hrun
    obtain ⟨hu, hwhy⟩ := he trivial
    rw [hreply, hafter]
    refine ⟨w.contents sb, ?_, w, free, hu, hw, rfl⟩
    rw [KeyMap.Answers, hfree]
    rcases hwhy with ⟨hsize, rfl⟩ | ⟨hle, hfull, rfl⟩ | ⟨hle, hroom, hd, hrefuse⟩
    · rw [if_pos hsize]
      exact ⟨rfl, rfl⟩
    · rw [if_neg (Nat.not_lt.2 hle), if_pos hfull]
      exact ⟨rfl, rfl⟩
    · rw [if_neg (Nat.not_lt.2 hle), if_neg (Nat.not_lt.2 hroom)]
      rcases hrefuse with ⟨i, hi, hkey, hcount, rfl⟩ | ⟨-, hsmall⟩
      · refine .inr ⟨hd, hw.crowded hv.fits hd hi hcount fun t ht => ?_, ⟨_, rfl⟩, rfl⟩
        obtain ⟨-, -, hhash, hPx⟩ := hw.owner hi ht
        exact hP hd _ _ hPx (hdata hle) (hhash.trans hkey)
      · exact absurd (hcap hd) (Nat.not_le.2 hsmall)

theorem Represents.reads (h : Represents sb P v M) : v.Reads M := by
  obtain ⟨w, free, hv, hw, rfl⟩ := h
  exact hv.reads trivial hw

theorem Represents.query (h : Represents sb P v M) {c : Call} {f : Volume → Except StoreError Reply}
    (hc : c.run = BlockStore.query f) (hf : M.Answers sb.isDedup v.freeCount c (f v) M) :
    ∃ M', M.Answers sb.isDedup v.freeCount c (c.reply v) M' ∧ Represents sb P (c.after v) M' := by
  obtain ⟨hreply, hafter⟩ := reply_of_query v hc
  rw [hreply, hafter]
  exact ⟨M, hf, h⟩

/-- A call is answered as the map answers it, and leaves the volume with the map after it. -/
theorem Represents.step (h : Represents sb P v M) (hP : sb.isDedup → Distinct P)
    (hcap : sb.isDedup → sb.slots ≤ sb.dedupCapacity) {c : Call} {cs : List Call}
    (hblocks : ∀ b ∈ Call.blocks (c :: cs), P b) :
    ∃ M', M.Answers sb.isDedup v.freeCount c (c.reply v) M' ∧ Represents sb P (c.after v) M' := by
  cases c with
  | create key now => exact h.create key now
  | put key data created stored =>
    refine h.put hP hcap key data (fun hle => hblocks _ ?_) created stored
    rw [Call.blocks, if_pos hle]
    exact List.mem_cons_self
  | remove key => exact h.remove key
  | rename old new => exact h.rename old new
  | get key =>
    refine h.query rfl ⟨?_, rfl⟩
    rw [h.reads.get]
    cases M key <;> rfl
  | contains key =>
    refine h.query rfl ⟨?_, rfl⟩
    rw [h.reads.contains]
    rfl
  | list =>
    obtain ⟨ks, hlist, hks⟩ := h.reads.list
    refine h.query rfl ⟨⟨ks, ?_, hks⟩, rfl⟩
    rw [hlist]
    rfl

theorem blocks_subset (c : Call) (cs : List Call) : Call.blocks cs ⊆ Call.blocks (c :: cs) := by
  cases c with
  | put key data created stored =>
    rw [Call.blocks]
    split
    · exact List.subset_cons_self _ _
    · exact List.Subset.refl _
  | _ => exact List.Subset.refl _

theorem Represents.conforms (h : Represents sb P v M) (hP : sb.isDedup → Distinct P)
    (hcap : sb.isDedup → sb.slots ≤ sb.dedupCapacity) {cs : List Call}
    (hblocks : ∀ b ∈ Call.blocks cs, P b) : Conforms sb.isDedup M v cs := by
  induction cs generalizing v M with
  | nil => trivial
  | cons c cs ih =>
    obtain ⟨M', hanswer, hafter⟩ := h.step hP hcap hblocks
    exact ⟨M', hanswer, ih hafter fun b hb => hblocks b (blocks_subset c cs hb)⟩

theorem represents_of_format {l : Layout} {d d' : Device} {v : Volume} (hd : d.Reliable)
    (h : format l d = .ok v d') (P : Block → Prop) :
    Represents l.superblock P v fun _ => none :=
  ⟨.blank, _, shows_of_format_reliable hd h, View.sound_blank _ _ _, View.contents_blank _⟩

/-- **A volume is a map.** On a device without faults, a freshly formatted volume answers every sequence
of calls as the empty map does; if it deduplicates, under the assumption that no two of the blocks to be
stored have the same content key. -/
theorem conforms_of_format {l : Layout} {d d' : Device} {v : Volume} (hd : d.Reliable)
    (h : format l d = .ok v d') (calls : List Call)
    (hhash : l.dedup → Distinct (· ∈ Call.blocks calls)) :
    Conforms l.dedup (fun _ => none) v calls := by
  rw [← l.isDedup_superblock] at hhash ⊢
  refine (represents_of_format hd h (· ∈ Call.blocks calls)).conforms hhash (fun hdedup => ?_)
    fun b hb => hb
  exact l.slots_le_dedupCapacity (l.isDedup_superblock ▸ hdedup)

/-- A deduplicating volume with two slots, on which the zero key is stored, renamed and read. -/
theorem conforms_two_slots :
    ∃ v d', (Device.ofImage (.blank (Layout.totalSize 2 true))).Reliable ∧
      format ⟨2, true, by decide, by decide⟩ (.ofImage (.blank (Layout.totalSize 2 true))) = .ok v d' ∧
      Conforms true (fun _ => none) v
        [.put .zero (zeros 5) ⟨0⟩ ⟨0⟩, .rename .zero ⟨bytesOf (List.replicate 20 1), rfl⟩, .list] := by
  have hd := Device.reliable_ofImage (.blank (Layout.totalSize 2 true))
  rcases format_cases ⟨2, true, by decide, by decide⟩ (.ofImage (.blank (Layout.totalSize 2 true))) with
    ⟨v, hv, -⟩ | ⟨-, hfail⟩
  · refine ⟨v, _, hd, hv, conforms_of_format hd hv _ fun _ a b ha hb _ => ?_⟩
    simp only [Call.blocks, size_zeros, show 5 ≤ blockSize by decide, if_true,
      List.mem_singleton] at ha hb
    rw [ha, hb]
  · exact absurd ⟨hd, Nat.le_refl _⟩ hfail

end Volume

end BlockStore
