import BlockStore.Proofs.Deeds
import BlockStore.Proofs.FormatWrites

/-!
# Making a volume in a file

A command line that makes a volume may find the file there or make it first, and it may look for a volume
in it or not. When it succeeds, whatever the way, the last thing that was done to a file is that the image of
a formatted device was written to it, and there it is.

A file that is there already is taken as it is. It is assumed to have the length of a file, which is less
than 2^63.

## Main definitions

* `FormatRequest.layout`: the layout of the volume that is asked for.
* `Job.makeVolume`: the command without the look for a volume.

## Main results

* `Layout.hosts_of_format`: nothing is amiss on the image of a formatted device.
* `CommandLine.exists_hosts_of_format`: a command line that has made a volume.
* `CommandLine.code_of_format`: one that makes it.
-/

namespace BlockStore

namespace Layout

variable {l : Layout} {n size : Nat} {dedup : Bool}

theorem of_forBlocks (h : forBlocks n dedup = .ok l) : l.slots = n ∧ l.dedup = dedup := by
  rw [forBlocks] at h
  split at h <;> cases h
  exact ⟨rfl, rfl⟩

theorem dedup_of_forDevice (h : forDevice size dedup = .ok l) : l.dedup = dedup := by
  rw [forDevice] at h
  split at h
  · exact (of_forBlocks h).2
  · cases h

/-- Nothing is amiss on the image of a formatted device, and nothing is stored on it. -/
theorem hosts_of_format {d d' : Device} {v : Volume} (hd : d.Reliable) (hsize : d.size < 1 <<< 63)
    (h : Volume.format l d = .ok v d') :
    l.superblock.Hosts d'.image ∧ (∀ P, l.superblock.Stores P d'.image fun _ => none) ∧
      d.log.size < d'.log.size := by
  have hlarge : l.size ≤ d.size := by
    refine Nat.not_lt.1 fun hsmall => ?_
    rw [Volume.format_of_small hsmall] at h
    cases h
  obtain ⟨u, hu, hshows, htook, hfresh⟩ := Volume.format_complete hd hlarge
  obtain rfl : u.device = d' := by
    rw [h] at hu
    cases hu
    rfl
  have hblank : l.superblock.view u.device.image = .blank := hshows.view
  refine ⟨⟨hshows.superblock ▸ hshows.mounted.stored, hshows.superblock ▸ hshows.mounted.fits,
    hfresh.size ▸ hsize, hblank ▸ View.exact_blank _, ?_, ?_⟩, fun P => ⟨?_, ?_⟩, ?_⟩
  · rw [hblank]
    rintro - s ⟨hactive, -⟩
    exact absurd hactive (by decide : ¬ KeyEntry.free.isActive = true)
  · rw [l.isDedup_superblock]
    exact l.slots_le_dedupCapacity
  · rw [hblank]
    exact View.sound_blank _ _ _
  · rw [hblank]
    exact View.contents_blank _
  · have hlog := congrArg List.length htook.log
    rw [List.length_append, l.length_writes, Array.length_toList, Array.length_toList] at hlog
    omega

end Layout

/-- The layout of the volume that is asked for, in a file of a size. -/
def FormatRequest.layout (how : FormatRequest) (dedup : Bool) (size : Nat) : Except StoreError Layout :=
  match how.slots with
  | some n => Layout.forBlocks n.toNat dedup
  | none => Layout.forDevice size dedup

theorem FormatRequest.of_layout {how : FormatRequest} {dedup : Bool} {size : Nat} {l : Layout}
    (h : how.layout dedup size = .ok l) :
    l.dedup = dedup ∧ ∀ n, how.slots = some n → l.slots = n.toNat := by
  rw [layout] at h
  cases hslots : how.slots with
  | some n =>
    rw [hslots] at h
    obtain ⟨hn, hdedup⟩ := Layout.of_forBlocks h
    refine ⟨hdedup, ?_⟩
    rintro _ ⟨⟩
    exact hn
  | none =>
    rw [hslots] at h
    exact ⟨Layout.dedup_of_forDevice h, by rintro _ ⟨⟩⟩

namespace Job

variable {w w' : Workspace} {path : String} {limit : Nat} {out out' : ByteArray}

/-- A file that is there is resized. -/
theorem createFile_apply {place : List String} {image : Image} {size : Nat}
    (hpath : w.resolve path = .ok place) (hfile : w.HasFile place image) (hsmall : size < 1 <<< 63)
    (hlimit : size ≤ limit) (out : ByteArray) : (createFile limit path size : Job _) out w =
      ((.ok (.ok (image.resize size)), out), w.withFile place (image.resize size)) := by
  have hwrite (image' : Image) : (writeFile path image' : Job _) out w =
      ((.ok (.ok ()), out), w.withFile place image') := by
    refine (liftM_apply _ out w).trans ?_
    rw [w.writeFile_apply, Workspace.write_eq hpath hfile]
  have hkept := hwrite image
  rw [hfile.withFile_eq] at hkept
  rw [createFile]
  refine (bind_of_ok (readFile_apply path out w)).trans ?_
  rw [Workspace.read_eq hpath hfile]
  refine (bind_of_ok hkept).trans ?_
  dsimp only
  rw [if_neg (Nat.not_le.2 hsmall), if_neg (Nat.not_lt.2 hlimit)]
  exact bind_of_ok (hwrite _)

/-- A file that is made has the size that was asked for, which a file can have. -/
theorem size_of_createFile {size : Nat} {image : Image}
    (h : (createFile limit path size : Job _) out w = ((.ok (.ok image), out'), w')) :
    image.size < 1 <<< 63 := by
  rw [createFile] at h
  obtain ⟨r, mid, u, -, h⟩ := of_bind_eq_ok h
  obtain ⟨made, mid', u', -, h⟩ := of_bind_eq_ok h
  cases made with
  | error e => cases h
  | ok =>
    dsimp only at h
    split at h
    · cases h
    split at h
    · cases h
    · rename_i hsize _
      obtain ⟨made, mid', u', -, h⟩ := of_bind_eq_ok h
      cases made with
      | error e => cases h
      | ok =>
        cases h
        rw [Image.size_resize]
        exact Nat.not_le.1 hsize

/-- The file for a new volume is no longer than a file can be. -/
theorem size_of_obtainFile {size : Option UInt64} {image : Image}
    (hsmall : ∀ image, w.read path = .ok image → image.size < 1 <<< 63)
    (h : (obtainFile limit path size : Job Image) out w = ((.ok image, out'), w')) :
    image.size < 1 <<< 63 := by
  cases size with
  | some size =>
    obtain ⟨made, mid, u, hmade, h⟩ := of_bind_eq_ok h
    cases made with
    | error e => cases h
    | ok image' =>
      cases h
      exact size_of_createFile hmade
  | none =>
    rw [obtainFile, load_apply] at h
    cases hread : w.read path with
    | error e =>
      rw [hread] at h
      cases h
    | ok image' =>
      rw [hread] at h
      cases h
      exact hsmall image hread

/-- Looking for a volume leaves every file alone. -/
theorem eq_of_refuseVolume {r : Except Failure Unit}
    (h : (refuseVolume limit path : Job Unit) out w = ((r, out'), w')) : w' = w := by
  rw [refuseVolume, bind_of_ok (fileExists_apply path out w)] at h
  split at h
  · rw [bind_apply, load_apply] at h
    cases hread : w.read path with
    | ok image =>
      rw [hread] at h
      dsimp only at h
      split at h <;>
        · cases h
          rfl
    | error e =>
      rw [hread] at h
      cases h
      rfl
  · cases h
    rfl

theorem of_ofStore {α : Type} {work : Option String} {r : Except StoreError α} {a : α}
    (h : (ofStore work r : Job α) out w = ((.ok a, out'), w')) : r = .ok a ∧ w' = w := by
  cases r with
  | ok a' =>
    cases h
    exact ⟨rfl, rfl⟩
  | error e => cases h

/-- What is done after the look for a volume: the file is found or made, and a volume is made in it. -/
def makeVolume (limit : Nat) (path : String) (how : FormatRequest) (config : Config) : Job Unit := do
  let image ← obtainFile limit path (how.size <|> config.sizeBytes)
  let layout ← ofStore none (how.layout (how.dedup || config.dedup) image.size)
  let v ← onFile (some s!"Failed to format {path}") path (.ofFile limit image) (Volume.format layout)
  print (Report.formatted path v.superblock (how.dedup || config.dedup))

/-- By force, a volume is not looked for. -/
theorem runFormat_of_force {how : FormatRequest} {config : Config} (hforce : how.force) :
    (runFormat limit path how config : Job Unit) = makeVolume limit path how config := by
  rw [runFormat, hforce]
  rfl

/-- A volume that is looked for and not found changes nothing. -/
theorem of_runFormat {how : FormatRequest} {config : Config}
    (h : (runFormat limit path how config : Job Unit) out w = ((.ok (), out'), w')) :
    ∃ mid, makeVolume limit path how config mid w = ((.ok (), out'), w') := by
  cases hforce : how.force with
  | true => exact ⟨out, runFormat_of_force hforce ▸ h⟩
  | false =>
    rw [runFormat, hforce, if_pos Bool.not_false] at h
    obtain ⟨_, mid, u, hrefuse, hrest⟩ := of_bind_eq_ok h
    obtain rfl := eq_of_refuseVolume hrefuse
    exact ⟨mid, hrest⟩

/-- A volume that was made is in the file at the end of the path. -/
theorem hosts_of_makeVolume {how : FormatRequest} {config : Config}
    (hsmall : ∀ image, w.read path = .ok image → image.size < 1 <<< 63)
    (h : makeVolume limit path how config out w = ((.ok (), out'), w')) :
    ∃ place image, ∃ l : Layout, w'.resolve path = .ok place ∧ w'.HasFile place image ∧
      l.superblock.Hosts image ∧ (∀ P, l.superblock.Stores P image fun _ => none) ∧
      l.dedup = (how.dedup || config.dedup) ∧ ∀ n, how.slots = some n → l.slots = n.toNat := by
  obtain ⟨image, out₂, u, hobtain, h⟩ := of_bind_eq_ok h
  obtain ⟨l, out₃, u', hlayout, h⟩ := of_bind_eq_ok h
  obtain ⟨v, out₄, u'', hformat, h⟩ := of_bind_eq_ok h
  obtain ⟨hl, rfl⟩ := of_ofStore hlayout
  obtain ⟨d', hformat, hback⟩ := of_onFile hformat
  have hsize := size_of_obtainFile hsmall hobtain
  have hreliable : (Device.ofFile limit image).Reliable := ⟨rfl, fun _ => hsize⟩
  obtain ⟨hhosts, hstores, hlog⟩ := Layout.hosts_of_format hreliable hsize hformat
  rw [Workspace.writtenBack, if_pos hlog] at hback
  obtain ⟨place, rfl, hpath⟩ := Workspace.of_write hback
  cases h
  exact ⟨place, d'.image, l, hpath, Workspace.hasFile_withFile _ _ _, hhosts, hstores,
    FormatRequest.of_layout hl⟩

end Job

namespace CommandLine

variable {c : CommandLine} {w : Workspace} {invocation : Invocation} {how : FormatRequest} {path : String}

/-- A command line that makes a volume and succeeds has made it. -/
theorem exists_hosts_of_format (hparse : Invocation.parse c.args = .ok invocation)
    (hrequest : invocation.request = .format how)
    (hdevice : invocation.options.devicePath (c.config w) = some path)
    (hsmall : ∀ image, w.read path = .ok image → image.size < 1 <<< 63)
    (hdone : (c.run w).1.code = 0) :
    ∃ place image, ∃ l : Layout, (c.run w).2.resolve path = .ok place ∧
      (c.run w).2.HasFile place image ∧ l.superblock.Hosts image ∧
      (∀ P, l.superblock.Stores P image fun _ => none) ∧
      l.dedup = (how.dedup || (c.config w).dedup) ∧
      ∀ n, how.slots = some n → l.slots = n.toNat := by
  have hrun : (invocation.request.run c.session (c.config w) (some path) :
      Job Unit) .empty w = (runFormat c.limit path how (c.config w) : Job Unit) .empty w := by
    rw [hrequest]
    exact Job.bind_of_ok (Job.pure_apply path .empty w)
  rw [run_apply hparse hdevice, hrun] at hdone ⊢
  rcases hformat : (runFormat c.limit path how (c.config w) : Job Unit) .empty w with ⟨⟨r, out⟩, u⟩
  rw [hformat] at hdone
  cases r with
  | error failure => cases hdone
  | ok =>
    obtain ⟨mid, hmade⟩ := Job.of_runFormat hformat
    exact Job.hosts_of_makeVolume hsmall hmade

/-- By force a volume is made in any file that is there, if it is to be large enough. -/
theorem code_of_format (hparse : Invocation.parse c.args = .ok invocation)
    (hrequest : invocation.request = .format how)
    (hdevice : invocation.options.devicePath (c.config w) = some path) (hforce : how.force)
    {l : Layout} {size : UInt64} {n : UInt32} (hsize : how.size = some size) (hslots : how.slots = some n)
    (hl : l.slots = n.toNat) (hdedup : l.dedup = (how.dedup || (c.config w).dedup)) {image : Image}
    (hread : w.read path = .ok image) (hlarge : l.size ≤ size.toNat) (hsmall : size.toNat < 1 <<< 63)
    (hlimit : size.toNat ≤ c.limit) :
    (c.run w).1.code = 0 := by
  have hlayout : how.layout (how.dedup || (c.config w).dedup) (image.resize size.toNat).size =
      .ok l := by
    rw [FormatRequest.layout, hslots, ← hdedup]
    dsimp only
    rw [← hl, Layout.forBlocks, dif_pos ⟨l.slots_pos, l.slots_le⟩]
  obtain ⟨place, hpath, hfile⟩ := Workspace.of_read hread
  have hmade : (obtainFile c.limit path (some size) : Job Image) .empty w =
      ((.ok (image.resize size.toNat), .empty), w.withFile place (image.resize size.toNat)) :=
    Job.bind_of_ok (Job.createFile_apply hpath hfile hsmall hlimit .empty)
  have hreliable : (Device.ofFile c.limit (image.resize size.toNat)).Reliable := ⟨rfl, fun _ => hsmall⟩
  obtain ⟨v, hformat, -⟩ := Volume.format_complete hreliable hlarge
  obtain ⟨-, -, hlog⟩ := Layout.hosts_of_format hreliable hsmall hformat
  have hback : (w.withFile place (image.resize size.toNat)).writtenBack path
      (.ofFile c.limit (image.resize size.toNat)) v.device = .ok (w.withFile place v.device.image) := by
    rw [Workspace.writtenBack, if_pos hlog, Workspace.write_eq (Workspace.resolve_withFile hpath hfile _)
      (Workspace.hasFile_withFile _ _ _), Workspace.withFile_withFile]
  have hrun : ∃ out, (invocation.request.run c.session (c.config w) (some path) :
      Job Unit) .empty w = ((.ok (), out), w.withFile place v.device.image) := by
    rw [hrequest]
    refine ⟨.empty ++ (Report.formatted path v.superblock (how.dedup || (c.config w).dedup)).toUTF8,
      (Job.bind_of_ok (Job.pure_apply path .empty w)).trans ?_⟩
    rw [Job.runFormat_of_force hforce, Job.makeVolume, hsize]
    refine (Job.bind_of_ok hmade).trans ?_
    rw [hlayout]
    refine (Job.bind_of_ok (Job.ofStore_ok none l .empty _)).trans ?_
    refine (Job.bind_of_ok (Job.onFile_of_ok hformat hback .empty)).trans ?_
    exact Job.print_apply _ .empty _
  obtain ⟨out, hrun⟩ := hrun
  rw [run_apply hparse hdevice, hrun]

end CommandLine

end BlockStore
