import BlockStore.Config.File
import BlockStore.Workspace

/-!
# Saving settings

Settings are saved to a file. The directories on the way to it are made where there are none, and
they stay even if the settings turn out not to fit into a file or the file cannot be made.

## Main definitions

* `Workspace.makeDirectory`: makes a directory in one that is there.
* `Workspace.makeDirectories`: makes a directory and those on the way to it.
* `Workspace.makeParents`: makes the directories on the way to a file.
* `Config.save`: saves the settings to a file.
-/

namespace BlockStore

/-- Something has the name already. -/
def SystemError.fileExists : SystemError := .other "File exists" 17

namespace Workspace

/-- The workspace after a directory was made in one that is there. -/
def makeDirectory (w : Workspace) (path : String) : Except SystemError Workspace := do
  let place ← w.resolve path
  match w.root.at? place with
  | some _ => throw .fileExists
  | none => return { w with root := w.root.setAt (.directory []) place }

/-- The path leads to a directory. -/
def isDirectory (w : Workspace) (path : String) : Bool :=
  match w.resolve path with
  | .error _ => false
  | .ok place =>
    match w.root.at? place with
    | some (.directory _) => true
    | _ => false

/-- The workspace after a directory was made unless it is there already. -/
def ensureDirectory (w : Workspace) (path : String) : Except SystemError Workspace :=
  match w.makeDirectory path with
  | .ok u => .ok u
  | .error e => if w.isDirectory path then .ok w else .error e

/-- Makes a directory and, only if it has no place otherwise, those on the way to it. The names in its
path are given from the last to the first. -/
def makeDirectories (w : Workspace) : List String → Except SystemError Unit × Workspace
  | [] => (.ok (), w)
  | name :: above =>
    if name = "" ∨ name = "." then w.makeDirectories above
    else
      let path := "/".intercalate (name :: above).reverse
      match w.ensureDirectory path with
      | .ok u => (.ok (), u)
      | .error .noSuchFile =>
        match w.makeDirectories above with
        | (.error e, u) => (.error e, u)
        | (.ok (), u) =>
          match u.ensureDirectory path with
          | .ok u' => (.ok (), u')
          | .error e => (.error e, u)
      | .error e => (.error e, w)

/-- Makes the directories on the way to a file. Slashes and points at the end of the path are no
names. -/
def makeParents (w : Workspace) (path : String) : Except SystemError Unit × Workspace :=
  let names := (namesIn path).reverse.dropWhile fun name => name = "" ∨ name = "."
  w.makeDirectories (names.drop 1)

end Workspace

/-- Saves the settings to a file. -/
def Config.save (c : Config) (path : String) (w : Workspace) :
    Except ConfigError Unit × Workspace :=
  match w.makeParents path with
  | (.error e, u) => (.error (.unreadable e), u)
  | (.ok (), u) =>
    match c.toToml with
    | .error e => (.error e, u)
    | .ok text =>
      match u.write path (.ofBytes text.toUTF8) with
      | .error e => (.error (.unreadable e), u)
      | .ok u' => (.ok (), u')

end BlockStore
