import BlockStore.Proofs.Making
import BlockStore.Proofs.TimestampBytes

/-!
# Runs of commands on one file

The command line is the same store. From a file in which a volume has just been made, whatever commands are
carried out on it one after the other, each of which mounts the volume again: they succeed and fail as the
map from keys to values prescribes, and what they print is what it prescribes. Between two commands anything
may be done that leaves the file alone, so settings may change at any time.

Two runs may differ in their settings, in their checks and in the times of their commands. If they start
from one image and make the same calls, what is seen of these is the same, and the images at the end differ
in the bytes of timestamps only.

## Main definitions

* `Trace`: what was done and what was seen of it; `Trace.Prescribed` is what the map says of it.
* `Workspace.Commands`: a run of commands on the file at a place.
* `Workspace.KeepsStore`: what all runs from a workspace come to.

## Main results

* `Workspace.Commands.prescribed`: the first of the two statements, on any image on which nothing is amiss.
* `Superblock.Matches.calls`: the second one.
* `CommandLine.keepsStore_of_format`: both, for a volume that a command line has made.
-/

namespace BlockStore

/-! ### What is done and what is prescribed -/

/-- What was done to a file, one thing after the other, and what was seen of each. -/
abbrev Trace : Type := List (Deed × Outcome)

/-- The deed cannot change anything: nothing is to be stored, or a value that is too large. -/
def Deed.Idle : Deed → Prop
  | .check _ _ => True
  | .call (.get _) none => True
  | .call .list none => True
  | .call (.put _ data _ _) none => blockSize < data.size
  | .call _ _ => False

/-- What the map `M` prescribes for a deed on a volume with so many slots, and the map `M'` after it. -/
def Deed.Prescribed (dedup : Bool) (slots : Nat) (M : KeyMap) :
    Deed → (outcome : Outcome) → (M' : KeyMap) → Prop
  | .call c _, outcome, M' => ∃ n reply, M.Occupies dedup n ∧ M.Answers dedup (slots - n) c reply M' ∧
    outcome = c.outcome reply
  | .check repair json, outcome, M' => outcome = checkOutcome repair json ∧ M' = M

namespace Trace

/-- The calls that were made, without the checks. -/
def calls (trace : Trace) : List (Call × Outcome) :=
  trace.filterMap fun
    | (.call c _, outcome) => some (c, outcome)
    | (.check _ _, _) => none

/-- The blocks that were to be stored. -/
def blocks (trace : Trace) : List Block := Call.blocks (trace.calls.map Prod.fst)

/-- The map prescribes all of it. -/
def Prescribed (dedup : Bool) (slots : Nat) : KeyMap → Trace → Prop
  | _, [] => True
  | M, (deed, outcome) :: trace =>
    ∃ M', deed.Prescribed dedup slots M outcome M' ∧ Prescribed dedup slots M' trace

end Trace

namespace Workspace

/-- Commands are carried out on the file at a place, and other things are done that leave this file
alone. -/
inductive Commands (place : List String) : (w : Workspace) → Trace → (w' : Workspace) → Prop where
  /-- Nothing is done. -/
  | nil (w : Workspace) : Commands place w [] w
  /-- Something else is done. -/
  | aside {w u w' : Workspace} {image : Image} {trace : Trace} (before : w.HasFile place image)
      (after : u.HasFile place image) (rest : Commands place u trace w') : Commands place w trace w'
  /-- A command is carried out. -/
  | command {w w' : Workspace} {deed : Deed} {trace : Trace} (c : CommandLine)
      (asks : c.Asks w place deed) (rest : Commands place (c.run w).2 trace w') :
      Commands place w ((deed, c.seen w deed) :: trace) w'

/-- The file at a place serves as a store of this layout. -/
structure KeepsStore (l : Layout) (place : List String) (w : Workspace) : Prop where
  /-- It is there. -/
  present : ∃ image, w.HasFile place image
  /-- Commands do what the map prescribes, from the empty one on. If the volume deduplicates, no two of the
  blocks to be stored may have the same content key. -/
  prescribed : ∀ {trace w'}, Commands place w trace w' →
    (l.dedup → Volume.Distinct (· ∈ trace.blocks)) → trace.Prescribed l.dedup l.slots fun _ => none
  /-- A command that cannot change anything leaves every file as it is. -/
  idle : ∀ {trace w'}, Commands place w trace w' → ∀ {c : CommandLine} {deed : Deed},
    c.Asks w' place deed → deed.Idle → (c.run w').2 = w'
  /-- The same calls on the same image come to the same, wherever the file is and whatever the settings, the
  checks and the times are; but for the times, so does what they leave. -/
  repeats : ∀ {image place' u trace trace' w' u'}, w.HasFile place image → u.HasFile place' image →
    Commands place w trace w' → Commands place' u trace' u' →
    (trace.calls.map fun x => x.1.timeless) = (trace'.calls.map fun x => x.1.timeless) →
    trace.calls.map Prod.snd = trace'.calls.map Prod.snd ∧
      ∃ im im', w'.HasFile place im ∧ u'.HasFile place' im' ∧ l.superblock.SameButTimes im im'

end Workspace

/-! ### Calls on an image -/

/-- The calls are made on volumes that are mounted for them, from one image to another. -/
inductive Superblock.Calls (sb : Superblock) :
    (im : Image) → List (Call × Outcome) → (im' : Image) → Prop where
  /-- No call is made. -/
  | nil (im : Image) : Calls sb im [] im
  /-- A call is made on a volume that was mounted for it. -/
  | call {im im' : Image} {v : Volume} {c : Call} {calls : List (Call × Outcome)} (opened : v.Opened sb im)
      (given : ∀ key now, c ≠ .create key now)
      (rest : Calls sb (c.after v).device.image calls im') :
      Calls sb im ((c, c.outcome (c.reply v)) :: calls) im'

/-- The same calls at other times, on images that differ in timestamps only. -/
theorem Superblock.Matches.calls {sb : Superblock} {im im' im₁ im₁' : Image}
    {calls calls' : List (Call × Outcome)} (h : sb.Matches im im') (hl : sb.Calls im calls im₁)
    (hr : sb.Calls im' calls' im₁')
    (hsame : (calls.map fun x => x.1.timeless) = (calls'.map fun x => x.1.timeless)) :
    calls.map Prod.snd = calls'.map Prod.snd ∧ sb.Matches im₁ im₁' := by
  induction hl generalizing im' calls' with
  | nil im =>
    cases hr with
    | nil => exact ⟨rfl, h⟩
    | call => cases hsame
  | @call _ _ v c _ hv hc _ ih =>
    cases hr with
    | nil => cases hsame
    | @call _ _ v' c' _ hv' hc' hrest' =>
      obtain ⟨hcall, hsame⟩ := List.cons.inj hsame
      have hcall : c.timeless = c'.timeless := hcall
      obtain ⟨houtcomes, hmatches⟩ := ih (h.after hv hv' hcall hc hc') hrest' hsame
      have houtcome : c.outcome (c.reply v) = c'.outcome (c'.reply v') := by
        rw [(h.step hv hv' hcall).1, ← c.outcome_timeless, hcall, c'.outcome_timeless]
      refine ⟨?_, hmatches⟩
      rw [List.map_cons, List.map_cons, houtcomes, houtcome]

/-! ### Runs -/

namespace Workspace

variable {sb : Superblock} {P : Block → Prop} {place : List String} {w w' : Workspace} {im : Image}
  {trace : Trace} {M : KeyMap}

/-- A run of commands is a sequence of calls on the image in the file, and nothing gets amiss on it. -/
theorem Commands.calls (hrun : Commands place w trace w') (hfile : w.HasFile place im) (h : sb.Hosts im) :
    ∃ im', w'.HasFile place im' ∧ sb.Hosts im' ∧ sb.Calls im trace.calls im' := by
  induction hrun generalizing im with
  | nil w => exact ⟨im, hfile, h, .nil im⟩
  | aside before after _ ih =>
    obtain rfl := before.unique hfile
    exact ih after h
  | @command w w' deed trace c asks rest ih =>
    cases deed with
    | call call output =>
      obtain ⟨v, hv, hseen, hfile'⟩ := c.seen_call h hfile asks
      obtain ⟨im', hfile', h', hcalls⟩ := ih hfile' (hv.hosts_after h asks.ne_create)
      rw [hseen]
      exact ⟨im', hfile', h', .call hv asks.ne_create hcalls⟩
    | check repair json =>
      rw [c.run_check h hfile asks] at ih
      exact ih hfile h

theorem Commands.prescribed (hrun : Commands place w trace w') (hfile : w.HasFile place im)
    (h : sb.Hosts im) (hM : sb.Stores P im M) (hP : sb.isDedup → Volume.Distinct P)
    (hblocks : ∀ b ∈ trace.blocks, P b) : trace.Prescribed sb.isDedup sb.slots M := by
  induction hrun generalizing im M with
  | nil w => trivial
  | aside before after _ ih =>
    obtain rfl := before.unique hfile
    exact ih after h hM hblocks
  | @command w w' deed trace c asks rest ih =>
    cases deed with
    | call call output =>
      obtain ⟨v, hv, hseen, hfile'⟩ := c.seen_call h hfile asks
      obtain ⟨n, M', hn, hanswer, hM'⟩ := hv.answers h hM hP hblocks
      refine ⟨M', ⟨n, _, hn, hanswer, hseen⟩, ?_⟩
      exact ih hfile' (hv.hosts_after h asks.ne_create) hM' fun b hb =>
        hblocks b (Volume.blocks_subset call _ hb)
    | check repair json =>
      rw [c.run_check h hfile asks] at ih
      rw [CommandLine.seen, c.run_check h hfile asks]
      exact ⟨M, ⟨rfl, rfl⟩, ih hfile h hM hblocks⟩

/-- A command that cannot change anything leaves every file as it is. -/
theorem run_of_idle {c : CommandLine} {deed : Deed} (hfile : w.HasFile place im) (h : sb.Hosts im)
    (hasks : c.Asks w place deed) (hidle : deed.Idle) : (c.run w).2 = w := by
  cases deed with
  | check repair json => rw [c.run_check h hfile hasks]
  | call call output =>
    obtain rfl : output = none := by
      cases output with
      | none => rfl
      | some file => cases call <;> exact hidle.elim
    obtain ⟨v, hv, hdone⟩ := c.run_call h hfile hasks
    have hafter : call.after v = v := by
      cases call with
      | put key data created stored => exact (put_of_large hidle key created stored v).2
      | get key => exact (Volume.reply_of_query v rfl).2
      | list => exact (Volume.reply_of_query v rfl).2
      | _ => exact hidle.elim
    rw [hdone, hafter, hv.image, hfile.withFile_eq]

/-- An image on which nothing is amiss and nothing is stored makes a store of the file that it is in. -/
theorem keepsStore_of_hosts {l : Layout} (hfile : w.HasFile place im) (h : l.superblock.Hosts im)
    (hM : ∀ P, l.superblock.Stores P im fun _ => none) : w.KeepsStore l place where
  present := ⟨im, hfile⟩
  prescribed := by
    intro trace w' hrun hhash
    rw [← l.isDedup_superblock] at hhash ⊢
    rw [← l.slots_superblock]
    exact hrun.prescribed hfile h (hM _) hhash fun b hb => hb
  idle := by
    intro trace w' hrun c deed hasks hidle
    obtain ⟨im', hfile', h', -⟩ := hrun.calls hfile h
    exact run_of_idle hfile' h' hasks hidle
  repeats := by
    intro image place' u trace trace' w' u' himage himage' hrun hrun' hsame
    obtain rfl := hfile.unique himage
    obtain ⟨im₁, hfile₁, -, hcalls⟩ := hrun.calls hfile h
    obtain ⟨im₁', hfile₁', -, hcalls'⟩ := hrun'.calls himage' h
    obtain ⟨houtcomes, hmatches⟩ := h.matches_self.calls hcalls hcalls' hsame
    exact ⟨houtcomes, im₁, im₁', hfile₁, hfile₁', hmatches.margin.sameButTimes hmatches.view⟩

end Workspace

/-- **The command line is the same store.** Of a command line that makes a volume and succeeds there is a
file at the end of its path, which keeps a store. Any sequence of commands that store, fetch, delete, rename
and list keys or check the volume, each mounting it again, succeeds and fails and prints as the map from
keys to values prescribes; every check is clean; and a value that is too large changes nothing. Settings,
checks in between and the times of the commands have no influence on that, nor on the bytes of the image
but those of timestamps. -/
theorem CommandLine.keepsStore_of_format {c : CommandLine} {w : Workspace} {invocation : Invocation}
    {how : FormatRequest} {path : String} (hparse : Invocation.parse c.args = .ok invocation)
    (hrequest : invocation.request = .format how)
    (hdevice : invocation.options.devicePath (c.config w) = some path)
    (hsmall : ∀ image, w.read path = .ok image → image.size < 1 <<< 63)
    (hdone : (c.run w).1.code = 0) :
    ∃ place, ∃ l : Layout, (c.run w).2.resolve path = .ok place ∧
      l.dedup = (how.dedup || (c.config w).dedup) ∧
      (∀ n, how.slots = some n → l.slots = n.toNat) ∧ (c.run w).2.KeepsStore l place := by
  obtain ⟨place, image, l, hpath, hfile, hhosts, hstores, hdedup, hslots⟩ :=
    exists_hosts_of_format hparse hrequest hdevice hsmall hdone
  exact ⟨place, l, hpath, hdedup, hslots, Workspace.keepsStore_of_hosts hfile hhosts hstores⟩

/-- The device is the only file of a directory and is empty. A deduplicating volume of two slots is made in
it. -/
theorem CommandLine.keepsStore_two_slots :
    ∃ c : CommandLine, c.args =
        ["mkfs", "--device", "a", "--dedup", "--size", "32768", "--blocks", "2", "--force"] ∧
      (c.run (.ofFile "a" (.blank 0))).1.code = 0 ∧ ∃ place, ∃ l : Layout, l.slots = 2 ∧ l.dedup ∧
        (c.run (.ofFile "a" (.blank 0))).2.KeepsStore l place := by
  have hparse : Invocation.parse
      ["mkfs", "--device", "a", "--dedup", "--size", "32768", "--blocks", "2", "--force"] =
        .ok ⟨⟨some "a", 0, false⟩, .format ⟨true, some 32768, some 2, true⟩⟩ := by decide +kernel
  have hread (image : Image) : (Workspace.ofFile "a" image).read "a" = .ok image :=
    Workspace.read_ofFile image (by decide +kernel) (by simp [Workspace.Proper]) (by decide)
  have hsmall : ∀ image, (Workspace.ofFile "a" (.blank 0)).read "a" = .ok image →
      image.size < 1 <<< 63 := by
    intro image himage
    rw [hread] at himage
    cases himage
    decide
  have hdone := CommandLine.code_of_format (c := ⟨fun _ => none, none, 1 <<< 44, .empty, ⟨0⟩, _⟩)
    (l := ⟨2, true, by decide, by decide⟩) hparse rfl rfl rfl rfl rfl rfl rfl (hread (.blank 0))
    (by decide) (by decide) (by decide)
  obtain ⟨place, l, -, hdedup, hslots, hkeeps⟩ :=
    CommandLine.keepsStore_of_format hparse rfl rfl hsmall hdone
  exact ⟨_, rfl, hdone, place, l, hslots _ rfl, hdedup, hkeeps⟩

end BlockStore
