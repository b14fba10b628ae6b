import BlockStore.Device

/-!
# Access to files

Commands reach files by path and read and write them as a whole. What a path means is left to the
instance: the files of the system, or the tree of a `Workspace`.

## Main definitions

* `FileAccess`: asking for, reading and writing files in a monad.
* `createFile`: makes a file of a given size, keeping what fits of an old one.
-/

namespace BlockStore

/-- Files by path. -/
class FileAccess (m : Type → Type) where
  /-- The path leads to something. Where the system cannot tell, whatever the reason, it does not. -/
  fileExists : (path : String) → m Bool
  /-- The contents of the file. -/
  readFile : (path : String) → m (Except SystemError Image)
  /-- Makes the file anew with these contents, in a directory that is there. -/
  writeFile : (path : String) → (image : Image) → m (Except SystemError Unit)

export FileAccess (fileExists readFile writeFile)

/-- Makes a file of a given size and returns its contents. What fits of an old file is kept. A size
that no file can have, or none past the limit, is noticed when the file is there already. -/
def createFile {m : Type → Type} [Monad m] [FileAccess m] (limit : Nat) (path : String) (size : Nat) :
    m (Except SystemError Image) := do
  let old := match ← readFile path with
    | .ok image => image
    | .error _ => .blank 0
  match ← writeFile path old with
  | .error e => return .error e
  | .ok () =>
    if 1 <<< 63 ≤ size then return .error .sizeOutOfRange
    else if limit < size then return .error .fileTooLarge
    else do
      let image := old.resize size
      match ← writeFile path image with
      | .error e => return .error e
      | .ok () => return .ok image

end BlockStore
