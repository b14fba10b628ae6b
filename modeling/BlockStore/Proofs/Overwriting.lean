import BlockStore.Proofs.Attach
import BlockStore.Proofs.Commands
import BlockStore.Proofs.FormatWrites

/-!
# A volume is not overwritten unasked

Making a volume looks for an old one first, before the file is made, resized or written to. It looks for
less than mounting does: the first block must be there and start with the magic number, whatever the rest
holds. So no volume escapes it that could be mounted, and the command fails with the files as they were.

## Main definitions

* `Superblock.Marks`: the first block of an image is there and starts with the magic number.
* `Volume.Mountable`: an image that mounts on some device.

## Main results

* `Superblock.probe_ofFile`: a file is taken for a volume just if its first block is marked.
* `Volume.Mountable.marks`: what can be mounted is marked.
* `runCommand_spares_volume`: without force the command fails and changes nothing.
-/

namespace BlockStore

namespace Superblock

/-- The first block of an image is there and starts with the two bytes of the magic number. -/
def Marks (image : Image) : Prop := blockSize ≤ image.size ∧ image.byte 0 = 0x6F ∧ image.byte 1 = 0x66

instance (image : Image) : Decidable (Marks image) := inferInstanceAs (Decidable (_ ∧ _))

/-- The first field of a block is the magic number just if its first two bytes are. -/
theorem leNat_eq_magicNumber_iff (b : ByteArray) :
    UInt16.ofNat (leNat b 0 2) = magicNumber ↔ byteAt b 0 = 0x6F ∧ byteAt b 1 = 0x66 := by
  have hlow := (byteAt b 0).toNat_lt
  have hhigh := (byteAt b 1).toNat_lt
  have hnat : leNat b 0 2 = (byteAt b 0).toNat + 256 * (byteAt b 1).toNat := by
    simp only [leNat, Nat.zero_add]
    omega
  have hword : (UInt16.ofNat (leNat b 0 2)).toNat = leNat b 0 2 := by
    refine UInt16.toNat_ofNat_of_lt' ?_
    rw [hnat, UInt16.size]
    omega
  rw [← UInt16.toNat_inj, ← UInt8.toNat_inj, ← UInt8.toNat_inj, hword, hnat]
  change _ = 0x666F ↔ _ = 0x6F ∧ _ = 0x66
  omega

theorem marks_iff {image : Image} : Marks image ↔
    blockSize ≤ image.size ∧ UInt16.ofNat (leNat (image.block 0).bytes 0 2) = magicNumber := by
  rw [Marks, leNat_eq_magicNumber_iff]
  rfl

/-- The first block of a file can be read just if it is there. -/
theorem readBlock_ofFile (limit : Nat) (image : Image) : (Device.ofFile limit image).readBlock 0 =
    if blockSize ≤ image.size then .ok (image.block 0) else .error (.device .shortRead) := by
  have hcheck : (Device.ofFile limit image).checkRead 0 1 =
      if image.size < blockSize then .error .shortRead else .ok () := by
    show (if image.size < blockSize then throw DeviceError.shortRead else pure ()) = _
    split <;> rfl
  rw [Device.readBlock, hcheck]
  by_cases hsize : blockSize ≤ image.size
  · rw [if_neg (Nat.not_lt.2 hsize), if_pos hsize]
    rfl
  · rw [if_pos (Nat.not_le.1 hsize), if_neg hsize]

/-- A file is taken for a volume just if its first block is marked. -/
theorem probe_ofFile (limit : Nat) (image : Image) :
    probe (.ofFile limit image) = decide (Marks image) := by
  have hdecode : ∃ sb, decode (image.block 0).bytes = .ok sb := by
    rw [decode, if_neg (by rw [(image.block 0).size_eq]; decide)]
    exact ⟨_, rfl⟩
  obtain ⟨sb, hsb⟩ := hdecode
  rw [probe, readBlock_ofFile]
  by_cases hsize : blockSize ≤ image.size
  · rw [if_pos hsize]
    simp only [hsb, marks_iff, ← magic_of_decode hsb, hsize, true_and]
    rfl
  · simp [hsize, Marks]

end Superblock

/-- An image that mounts on some device, with repair or without. -/
def Volume.Mountable (image : Image) : Prop :=
  ∃ d repair v d', d.image = image ∧ mount repair d = .ok v d'

/-- What can be mounted is marked. -/
theorem Volume.Mountable.marks {image : Image} (h : Mountable image) : Superblock.Marks image := by
  obtain ⟨d, repair, v, d', rfl, hmount⟩ := h
  obtain ⟨sb, hdecode, hfits⟩ := exists_of_mountVisiting hmount
  refine Superblock.marks_iff.2 ⟨?_, ?_⟩
  · have hle := hfits.holds_zero.le_size
    rwa [Nat.zero_add, Nat.one_mul] at hle
  · rw [← Superblock.magic_of_decode hdecode]
    exact hfits.magic

/-- The failure of making a volume where there is one. -/
def holdsVolume (path : String) : Failure :=
  ⟨s!"{path} already holds a kbfs volume; pass --force to reformat it", []⟩

/-- A file that holds a volume is refused. -/
theorem refuseVolume_apply {w : Workspace} {path : String} {image : Image} (hread : w.read path = .ok image)
    (hmarks : Superblock.Marks image) (limit : Nat) (out : ByteArray) :
    (refuseVolume limit path : Job Unit) out w = ((.error (holdsVolume path), out), w) := by
  have hload : (load s!"Failed to open {path}" path : Job Image) out w = ((.ok image, out), w) := by
    rw [Job.load_apply, hread]
  rw [refuseVolume, Job.bind_of_ok (Job.fileExists_apply path out w), if_pos (Workspace.has_of_read hread),
    Job.bind_of_ok hload, Superblock.probe_ofFile, decide_eq_true hmarks]
  rfl

/-- Nothing is done before the file is looked at. -/
theorem runFormat_apply {w : Workspace} {path : String} {how : FormatRequest} {failure : Failure}
    {limit : Nat} {out : ByteArray} (hforce : how.force = false)
    (h : (refuseVolume limit path : Job Unit) out w = ((.error failure, out), w)) (config : Config) :
    (runFormat limit path how config : Job Unit) out w = ((.error failure, out), w) := by
  rw [runFormat, hforce]
  exact Job.bind_of_error h

/-- **A volume is not overwritten unasked.** If the file at the path of the device can be mounted, or if
just its first block is there and starts with the magic number, then making a volume without force fails,
whatever the other options and the settings are. It prints nothing, and every file is as before. -/
theorem runCommand_spares_volume {session : Session (StateM Workspace)} {args : List String}
    {invocation : Invocation} {how : FormatRequest} {w : Workspace} {path : String} {image : Image}
    (hparse : Invocation.parse args = .ok invocation) (hrequest : invocation.request = .format how)
    (hforce : how.force = false)
    (hdevice : invocation.options.devicePath (w.config session.home session.env) = some path)
    (hread : w.read path = .ok image) (hvolume : Volume.Mountable image ∨ Superblock.Marks image) :
    runCommand session args w = (⟨1, .empty, some (holdsVolume path).render⟩, w) := by
  have hmarks : Superblock.Marks image := hvolume.elim Volume.Mountable.marks id
  have hrefuse := refuseVolume_apply hread hmarks session.limit .empty
  have hrun : (invocation.request.run session (w.config session.home session.env)
      (invocation.options.devicePath (w.config session.home session.env)) : Job Unit) .empty w =
        ((.error (holdsVolume path), .empty), w) := by
    rw [hrequest, hdevice]
    exact (Job.bind_of_ok (Job.pure_apply path .empty w)).trans (runFormat_apply hforce hrefuse _)
  rw [runCommand_apply hparse, hrun]

/-- The device is the only file of a directory, with a volume of two slots on it, and is to be made
smaller. -/
theorem runCommand_spares_two_slots :
    Volume.Mountable (Volume.bareDevice ⟨2, true, by decide, by decide⟩).image ∧
      runCommand (⟨fun _ => none, none, 1 <<< 44, pure .empty, ⟨0⟩⟩ : Session (StateM Workspace))
          ["mkfs", "--device", "a", "--size", "8192"]
          (.ofFile "a" (Volume.bareDevice ⟨2, true, by decide, by decide⟩).image) =
        (⟨1, .empty, some (holdsVolume "a").render⟩,
          .ofFile "a" (Volume.bareDevice ⟨2, true, by decide, by decide⟩).image) := by
  have hmount : Volume.Mountable (Volume.bareDevice ⟨2, true, by decide, by decide⟩).image := by
    obtain ⟨-, v, -, -, hv, -⟩ := Volume.repair_settles_bare
    exact ⟨_, false, v, _, rfl, hv⟩
  have hparse : Invocation.parse ["mkfs", "--device", "a", "--size", "8192"] =
      .ok ⟨⟨some "a", 0, false⟩, .format ⟨false, some 8192, none, false⟩⟩ := by decide +kernel
  have hread (image : Image) : (Workspace.ofFile "a" image).read "a" = .ok image :=
    Workspace.read_ofFile image (by decide +kernel) (by simp [Workspace.Proper]) (by decide)
  exact ⟨hmount, runCommand_spares_volume hparse rfl rfl rfl (hread _) (.inl hmount)⟩

end BlockStore
