import BlockStore.Command.Run
import BlockStore.Proofs.Files

/-!
# Commands on a workspace

A command is a program over files. On a workspace it is a function from what has been printed and the
workspace to an outcome and both of them afterwards. What each part of a command does there is said here,
so that nothing else has to look into the layers that a command is made of.

## Main definitions

* `Job`: a part of a command that runs on a workspace.
* `Workspace.config`: the settings that commands find in a workspace.
* `Workspace.writtenBack`: the workspace after a device has been written back to its file.

## Main results

* `Job.bind_of_ok`, `Job.bind_of_error`: how parts follow one another.
* `Job.load_apply`, `save_apply`, `onFile_of_ok`, `onVolume_of_ok`: the parts that reach files.
* `runCommand_apply`: a command line that is understood is its request.
-/

namespace BlockStore

/-- A part of a command that runs on a workspace. -/
abbrev Job (α : Type) : Type := CommandM (StateM Workspace) α

/-- A directory with one file in it. -/
def Workspace.ofFile (name : String) (image : Image) : Workspace :=
  ⟨.directory [(name, .file image)], []⟩

/-- A path that is nothing but a name is enough to read the only file of a directory. -/
theorem Workspace.read_ofFile {name : String} (image : Image)
    (hparts : parts ⟨.directory [], []⟩ name = .ok ([], [name])) (hproper : Proper name)
    (hshort : name.utf8ByteSize ≤ maxNameSize) : (ofFile name image).read name = .ok image := by
  have hnames : (ofFile name image).Names name [] name := ⟨⟨[], [], hparts, rfl⟩, ⟨_, rfl⟩, hproper, hshort⟩
  have hfile : (ofFile name image).HasFile [name] image := by
    simp [HasFile, ofFile, FileTree.at?, FileTree.entries]
  exact read_eq hnames.resolve hfile

/-- The settings that commands find in a workspace. -/
def Workspace.config (w : Workspace) (home : Option String) (env : String → Option String) : Config :=
  .effective [(homeConfigPath home).bind w.find, w.find Config.projectFile] env

/-- The workspace after a device has been written back to its file, if it was written to. -/
def Workspace.writtenBack (w : Workspace) (path : String) (before after : Device) :
    Except SystemError Workspace :=
  if before.log.size < after.log.size then w.write path after.image else .ok w

theorem Workspace.writeFile_apply (w : Workspace) (path : String) (image : Image) :
    (writeFile path image : StateM Workspace _) w =
      match w.write path image with
      | .ok u => (Except.ok (), u)
      | .error e => (.error e, w) := by
  change (match w.write path image with | .ok u => _ | .error e => _ : StateM Workspace _) w = _
  cases w.write path image <;> rfl

theorem findFile_apply (path : String) (w : Workspace) :
    (findFile path : StateM Workspace Config.Found) w = (w.find path, w) := by
  change (if w.has path then _ else _ : StateM Workspace Config.Found) w = _
  rw [Workspace.find]
  split <;> rfl

theorem loadConfig_apply (home : Option String) (env : String → Option String) (w : Workspace) :
    (loadConfig home env : StateM Workspace Config) w = (w.config home env, w) := by
  rw [loadConfig, Workspace.config]
  cases homeConfigPath home with
  | none =>
    simp only [bind, StateT.bind, findFile_apply]
    rfl
  | some path =>
    simp only [bind, StateT.bind, findFile_apply]
    rfl

namespace Job

variable {α β : Type} {act : Job α} {f : α → Job β} {out out' : ByteArray} {w w' : Workspace}

theorem pure_apply (a : α) (out : ByteArray) (w : Workspace) :
    (pure a : Job α) out w = ((.ok a, out), w) := rfl

theorem bind_apply (act : Job α) (f : α → Job β) (out : ByteArray) (w : Workspace) :
    (act >>= f) out w =
      match act out w with
      | ((.ok a, out), w) => f a out w
      | ((.error e, out), w) => ((.error e, out), w) := by
  change (ExceptT.bind act f) out w = _
  simp only [ExceptT.bind, ExceptT.mk, bind, StateT.bind, ExceptT.bindCont]
  rcases act out w with ⟨⟨r, out'⟩, w'⟩
  cases r <;> rfl

theorem bind_of_ok {a : α} (h : act out w = ((.ok a, out'), w')) : (act >>= f) out w = f a out' w' := by
  rw [bind_apply, h]

theorem bind_of_error {e : Failure} (h : act out w = ((.error e, out'), w')) :
    (act >>= f) out w = ((.error e, out'), w') := by
  rw [bind_apply, h]

/-- Of two parts that succeed one after the other both do. -/
theorem of_bind_eq_ok {b : β} (h : (act >>= f) out w = ((.ok b, out'), w')) :
    ∃ a mid u, act out w = ((.ok a, mid), u) ∧ f a mid u = ((.ok b, out'), w') := by
  rw [bind_apply] at h
  rcases hact : act out w with ⟨⟨r, mid⟩, u⟩
  rw [hact] at h
  cases r with
  | error e => cases h
  | ok a => exact ⟨a, mid, u, rfl, h⟩

/-! ### The parts that reach files -/

theorem printBytes_apply (bytes out : ByteArray) (w : Workspace) :
    (printBytes bytes : Job Unit) out w = ((.ok (), out ++ bytes), w) := rfl

theorem print_apply (text : String) (out : ByteArray) (w : Workspace) :
    (print text : Job Unit) out w = ((.ok (), out ++ text.toUTF8), w) := rfl

theorem ofStore_ok (work : Option String) (a : α) (out : ByteArray) (w : Workspace) :
    (ofStore work (.ok a) : Job α) out w = ((.ok a, out), w) := rfl

theorem ofStore_error (work : Option String) (e : StoreError) (out : ByteArray) (w : Workspace) :
    (ofStore work (.error e) : Job α) out w =
      ((.error (.ofTexts work (Failure.textsOf e)), out), w) := rfl

theorem liftM_apply (act : StateM Workspace α) (out : ByteArray) (w : Workspace) :
    (liftM act : Job α) out w = ((.ok (act w).1, out), (act w).2) := rfl

theorem fileExists_apply (path : String) (out : ByteArray) (w : Workspace) :
    (fileExists path : Job _) out w = ((.ok (w.has path), out), w) := rfl

theorem readFile_apply (path : String) (out : ByteArray) (w : Workspace) :
    (readFile path : Job _) out w = ((.ok (w.read path), out), w) := rfl

theorem load_apply (work path : String) (out : ByteArray) (w : Workspace) :
    (load work path : Job Image) out w =
      match w.read path with
      | .ok image => ((.ok image, out), w)
      | .error e => ((.error ⟨work, [e.message]⟩, out), w) := by
  rw [load, bind_of_ok (readFile_apply path out w)]
  cases w.read path <;> rfl

theorem save_apply (work path : String) (image : Image) (out : ByteArray) (w : Workspace) :
    (save work path image : Job Unit) out w =
      match w.write path image with
      | .ok u => ((.ok (), out), u)
      | .error e => ((.error ⟨work, [e.message]⟩, out), w) := by
  have hwrite := liftM_apply (writeFile path image) out w
  rw [w.writeFile_apply] at hwrite
  refine (bind_of_ok hwrite).trans ?_
  cases w.write path image <;> rfl

theorem writeBack_apply (path : String) (before after : Device) (out : ByteArray) (w : Workspace) :
    (writeBack path before after : Job Unit) out w =
      match w.writtenBack path before after with
      | .ok u => ((.ok (), out), u)
      | .error e => ((.error ⟨s!"Failed to write {path}", [e.message]⟩, out), w) := by
  rw [writeBack, Workspace.writtenBack]
  split
  · exact save_apply _ path after.image out w
  · rfl

theorem writeBack_of_ok {path : String} {before after : Device}
    (h : w.writtenBack path before after = .ok w') (out : ByteArray) :
    (writeBack path before after : Job Unit) out w = ((.ok (), out), w') := by
  rw [writeBack_apply, h]

theorem of_writeBack {path : String} {before after : Device} {done : Unit}
    (h : (writeBack path before after : Job Unit) out w = ((.ok done, out'), w')) :
    w.writtenBack path before after = .ok w' := by
  rw [writeBack_apply] at h
  split at h <;> cases h
  assumption

/-- Work on a device that succeeds, and what it has written is saved. -/
theorem onFile_of_ok {work : Option String} {path : String} {d d' : Device} {act : DeviceM α} {a : α}
    (h : act d = .ok a d') (hback : w.writtenBack path d d' = .ok w') (out : ByteArray) :
    (onFile work path d act : Job α) out w = ((.ok a, out), w') := by
  rw [onFile, h]
  exact bind_of_ok (writeBack_of_ok hback out)

/-- Only work that succeeds and is saved succeeds. -/
theorem of_onFile {work : Option String} {path : String} {d : Device} {act : DeviceM α} {a : α}
    (h : (onFile work path d act : Job α) out w = ((.ok a, out'), w')) :
    ∃ d', act d = .ok a d' ∧ w.writtenBack path d d' = .ok w' := by
  rw [onFile] at h
  cases hact : act d with
  | ok a' d' =>
    rw [hact] at h
    obtain ⟨_, mid, u, hback, hrest⟩ := of_bind_eq_ok h
    cases hrest
    exact ⟨d', rfl, of_writeBack hback⟩
  | error e d' =>
    rw [hact] at h
    obtain ⟨_, mid, u, -, hrest⟩ := of_bind_eq_ok h
    rw [ofStore_error] at hrest
    cases hrest

/-- Work on a volume that succeeds, and what it has written is saved. -/
theorem onVolume_of_ok {path : String} {v u : Volume} {act : VolumeM α} {a : α} (h : act v = .ok a u)
    (hback : w.writtenBack path v.device u.device = .ok w') (out : ByteArray) :
    (onVolume path v act : Job α) out w = ((.ok a, out), w') := by
  rw [onVolume, h]
  exact bind_of_ok (writeBack_of_ok hback out)

/-- Work on a volume that fails, and what it has written is saved. -/
theorem onVolume_of_error {path : String} {v u : Volume} {act : VolumeM α} {e : StoreError}
    (h : act v = .error e u) (hback : w.writtenBack path v.device u.device = .ok w') (out : ByteArray) :
    (onVolume path v act : Job α) out w = ((.error (.ofTexts none (Failure.textsOf e)), out), w') := by
  rw [onVolume, h]
  exact (bind_of_ok (writeBack_of_ok hback out)).trans (ofStore_error none e out w')

end Job

/-! ### Command lines -/

/-- A command line that is understood is its request, on the device that it or the settings name. -/
theorem runCommand_apply {session : Session (StateM Workspace)} {args : List String}
    {invocation : Invocation} (h : Invocation.parse args = .ok invocation) (w : Workspace) :
    runCommand session args w =
      match (invocation.request.run session (w.config session.home session.env)
        (invocation.options.devicePath (w.config session.home session.env)) : Job Unit) .empty w with
      | ((.ok (), out), u) => (⟨0, out, none⟩, u)
      | ((.error failure, out), u) => (⟨1, out, some failure.render⟩, u) := by
  rw [runCommand, h]
  change (StateT.bind (loadConfig session.home session.env : StateM Workspace Config) _) w = _
  simp only [StateT.bind, loadConfig_apply, bind]
  rcases (invocation.request.run session (w.config session.home session.env)
    (invocation.options.devicePath (w.config session.home session.env)) : Job Unit) .empty w with ⟨⟨r, out⟩, u⟩
  cases r <;> rfl

end BlockStore
