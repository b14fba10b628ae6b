import BlockStore.Config.Save
import BlockStore.Proofs.Documents
import BlockStore.Proofs.Files

/-!
# Settings that are saved

What was saved is what is loaded. On the way to the file directories may be made, but a directory is made only
where nothing was, so every other file stays what it is. A size that takes more than 63 bits cannot be saved,
and that is noticed before the file is touched.

## Main definitions

* `Workspace.SameFiles`: two workspaces have the same files at the same places.

## Main results

* `FileTree.at?_setAt_of_ne`: files elsewhere are not changed by what is set in a directory.
* `Workspace.sameFiles_makeParents`: making directories changes no file.
* `Config.save_load`: settings that are saved are loaded, and those that cannot be change no file.
-/

namespace BlockStore

/-! ### Places in a tree -/

/-- A file is no way to a directory. -/
theorem FileTree.HasDirectory.ne_file {t : FileTree} {dir : List String} (h : t.HasDirectory dir)
    (image : Image) : t ≠ .file image := by
  rintro rfl
  obtain ⟨entries, h⟩ := h
  cases dir <;> cases h

/-- What is set in a directory, where there was none and none comes, changes no file elsewhere. -/
theorem FileTree.at?_setAt_of_ne {t u : FileTree} {dir other : List String} {name : String} {image : Image}
    (hdir : t.HasDirectory dir) (hplace : ¬ t.HasDirectory (dir ++ [name]))
    (hempty : ∀ below, below ≠ [] → u.at? below = none) (hother : other ≠ dir ++ [name]) :
    (t.setAt u (dir ++ [name])).at? other = some (.file image) ↔ t.at? other = some (.file image) := by
  induction dir generalizing t other with
  | nil =>
    cases other with
    | nil =>
      refine iff_of_false (fun h => ?_) fun h => hdir.ne_file image (Option.some.inj h)
      cases h
    | cons name' rest =>
      rw [List.nil_append, setAt, at?_cons, at?_cons, entries, lookup_setEntry]
      by_cases hname : name' = name
      · subst hname
        have hrest : rest ≠ [] := fun h => hother (by rw [h, List.nil_append])
        rw [if_pos rfl, Option.bind_some, setAt, hempty rest hrest]
        refine iff_of_false (by simp) fun h => ?_
        obtain ⟨inner, hlookup, hinner⟩ := Option.bind_eq_some_iff.1 h
        cases inner with
        | file image' =>
          obtain ⟨below, rest, rfl⟩ := List.exists_cons_of_ne_nil hrest
          cases hinner
        | directory below =>
          refine hplace ⟨below, ?_⟩
          rw [List.nil_append, at?_cons, hlookup]
          rfl
      · rw [if_neg hname]
  | cons above dir ih =>
    cases other with
    | nil =>
      refine iff_of_false (fun h => ?_) fun h => hdir.ne_file image (Option.some.inj h)
      cases h
    | cons name' rest =>
      rw [List.cons_append, setAt, at?_cons, at?_cons, entries, lookup_setEntry]
      by_cases hname : name' = above
      · subst hname
        obtain ⟨below, hdir⟩ := hdir
        rw [at?_cons] at hdir
        obtain ⟨inner, hlookup, hinner⟩ := Option.bind_eq_some_iff.1 hdir
        rw [if_pos rfl, hlookup, Option.getD_some, Option.bind_some, Option.bind_some]
        have hplace' : ¬ inner.HasDirectory (dir ++ [name]) := by
          rintro ⟨found, hfound⟩
          refine hplace ⟨found, ?_⟩
          rw [List.cons_append, at?_cons, hlookup]
          exact hfound
        exact ih ⟨below, hinner⟩ hplace' fun h => hother (by rw [h, List.cons_append])
      · rw [if_neg hname]

namespace Workspace

variable {w w' u : Workspace} {path : String} {place other : List String} {image image' : Image}

/-- The same files are at the same places. -/
def SameFiles (w w' : Workspace) : Prop := ∀ place image, w'.HasFile place image ↔ w.HasFile place image

theorem SameFiles.refl (w : Workspace) : w.SameFiles w := fun _ _ => Iff.rfl

theorem SameFiles.trans (h : w.SameFiles w') (h' : w'.SameFiles u) : w.SameFiles u :=
  fun place image => (h' place image).trans (h place image)

/-- A directory is made where nothing was. -/
theorem sameFiles_makeDirectory (h : w.makeDirectory path = .ok w') : w.SameFiles w' := by
  obtain ⟨place, hpath, h⟩ := ok_of_bind h
  split at h
  case h_1 => cases h
  case h_2 hnone =>
    cases h
    have hplace : ¬ w.root.HasDirectory place := by
      rintro ⟨entries, hdir⟩
      rw [hnone] at hdir
      cases hdir
    obtain ⟨dir, name, hnames, rfl⟩ := names_of_resolve hpath hplace
    intro other image
    by_cases hother : other = dir ++ [name]
    · subst hother
      rw [HasFile, HasFile, FileTree.at?_setAt, hnone]
      simp
    · refine FileTree.at?_setAt_of_ne hnames.directory hplace (fun below hbelow => ?_) hother
      obtain ⟨first, rest, rfl⟩ := List.exists_cons_of_ne_nil hbelow
      rfl

theorem sameFiles_ensureDirectory (h : w.ensureDirectory path = .ok w') : w.SameFiles w' := by
  rw [ensureDirectory] at h
  split at h
  case h_1 hmade =>
    cases h
    exact sameFiles_makeDirectory hmade
  case h_2 =>
    split at h <;> cases h
    exact .refl w

theorem sameFiles_makeDirectories (w : Workspace) (names : List String) :
    w.SameFiles (w.makeDirectories names).2 := by
  induction names with
  | nil => exact .refl w
  | cons name above ih =>
    rw [makeDirectories]
    split
    · exact ih
    · dsimp only
      split
      case h_1 hmade => exact sameFiles_ensureDirectory hmade
      case h_2 =>
        split
        case h_1 hfailed =>
          rw [hfailed] at ih
          exact ih
        case h_2 hmade =>
          rw [hmade] at ih
          split
          case h_1 hlast => exact ih.trans (sameFiles_ensureDirectory hlast)
          case h_2 => exact ih
      case h_3 => exact .refl w

/-- Making the directories on the way to a file changes no file. -/
theorem sameFiles_makeParents (w : Workspace) (path : String) : w.SameFiles (w.makeParents path).2 :=
  sameFiles_makeDirectories w _

/-- A file that is made changes no other. -/
theorem hasFile_of_write (htarget : w.target path = .ok place) (h : w.write path image = .ok w')
    (hother : other ≠ place) : w'.HasFile other image' ↔ w.HasFile other image' := by
  rw [write, htarget] at h
  cases h
  obtain ⟨hplace, dir, name, hnames, rfl⟩ := names_of_target htarget
  refine FileTree.at?_setAt_of_ne hnames.directory hplace (fun below hbelow => ?_) hother
  obtain ⟨first, rest, rfl⟩ := List.exists_cons_of_ne_nil hbelow
  rfl

end Workspace

namespace Config

/-- Settings that are saved are loaded again, and those that cannot be saved change no file.

If the size takes 63 bits, the directories on the way to the file can be made and the file can be made in
them, then the settings are saved, what is loaded from the file alone are the same settings, and all other
files are what they were. A size that takes more bits cannot be saved, and then all files are what they
were. -/
theorem save_load (c : Config) (path : String) (w : Workspace) :
    ((∀ n, c.sizeBytes = some n → n.toNat < 1 <<< 63) →
      ∀ u place, w.makeParents path = (.ok (), u) → u.target path = .ok place →
        ∃ w', c.save path w = (.ok (), w') ∧ load [w'.find path] = .ok c ∧
          ∀ other image, other ≠ place → (w'.HasFile other image ↔ w.HasFile other image)) ∧
    ∀ n, c.sizeBytes = some n → 1 <<< 63 ≤ n.toNat →
      ∃ e w', c.save path w = (.error e, w') ∧ ((w.makeParents path).1 = .ok () → e = .sizeOutOfRange) ∧
        ∀ other image, w'.HasFile other image ↔ w.HasFile other image := by
  constructor
  · intro hsize u place hmade htarget
    obtain ⟨file, hfile, -⟩ | ⟨-, n, hn, hlarge⟩ := toToml_cases c
    · have hwrite : u.write path (.ofBytes file.toUTF8) = .ok (u.withFile place (.ofBytes file.toUTF8)) := by
        rw [Workspace.write, htarget]
        rfl
      have hsame := w.sameFiles_makeParents path
      rw [hmade] at hsame
      refine ⟨u.withFile place (.ofBytes file.toUTF8), by simp only [save, hmade, hfile, hwrite], ?_,
        fun other image hother => ?_⟩
      · rw [Workspace.find_of_read (Workspace.read_of_write hwrite), Image.toBytes_ofBytes]
        exact load_toToml hfile
      · exact (Workspace.hasFile_of_write htarget hwrite hother).trans (hsame other image)
    · have hle := hsize n hn
      omega
  · intro n hn hlarge
    obtain ⟨-, -, hsmall⟩ | ⟨htoml, -⟩ := toToml_cases c
    · have hlt := hsmall n hn
      omega
    · have hsame := w.sameFiles_makeParents path
      rcases hmade : w.makeParents path with ⟨made | made, u⟩
      · rw [hmade] at hsame
        refine ⟨.unreadable made, u, by simp only [save, hmade], fun h => ?_, hsame⟩
        cases h
      · rw [hmade] at hsame
        exact ⟨.sizeOutOfRange, u, by simp only [save, hmade, htoml], fun _ => rfl, hsame⟩

/-- Settings with quotes, a backslash and a line break are saved in a new directory. -/
theorem save_load_quotes :
    ∃ w', save ⟨some "a\"\\'\nb", true, some 4096, false, "warn"⟩ "d/c" ⟨.directory [], []⟩ = (.ok (), w') ∧
      load [w'.find "d/c"] = .ok ⟨some "a\"\\'\nb", true, some 4096, false, "warn"⟩ := by
  have hnames : Workspace.namesIn "d/c" = ["d", "c"] := by decide +kernel
  have hjoin : "/".intercalate ["d"] = "d" := by decide +kernel
  have hplace : Workspace.resolve ⟨.directory [], []⟩ "d" = .ok ["d"] := by decide +kernel
  have hnew : Workspace.ensureDirectory ⟨.directory [], []⟩ "d" =
      .ok ⟨.directory [("d", .directory [])], []⟩ := by
    rw [Workspace.ensureDirectory, Workspace.makeDirectory, hplace]
    rfl
  have hmade : Workspace.makeParents ⟨.directory [], []⟩ "d/c" =
      (.ok (), ⟨.directory [("d", .directory [])], []⟩) := by
    simp [Workspace.makeParents, hnames, Workspace.makeDirectories, hjoin, hnew]
  have htarget : Workspace.target ⟨.directory [("d", .directory [])], []⟩ "d/c" = .ok ["d", "c"] := by decide +kernel
  have hsize : ∀ n : UInt64, some 4096 = some n → n.toNat < 1 <<< 63 := by
    rintro n hn
    cases hn
    decide
  obtain ⟨w', hsaved, hloaded, -⟩ :=
    (save_load ⟨some "a\"\\'\nb", true, some 4096, false, "warn"⟩ "d/c" ⟨.directory [], []⟩).1
      hsize _ _ hmade htarget
  exact ⟨w', hsaved, hloaded⟩

end Config

end BlockStore
