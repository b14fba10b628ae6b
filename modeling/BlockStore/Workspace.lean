import BlockStore.FileAccess

/-!
# Workspaces

A workspace is a tree of directories and files with one directory from which paths start. It is a
world for commands that is a value, so what a run of commands does to files can be computed.

## Main definitions

* `FileTree`: directories and files.
* `Workspace`: a tree and the directory where relative paths start.
* `Workspace.resolve`: where a path leads.
* `Workspace.has`: whether it leads to anything.
* `Workspace.read`, `Workspace.write`: the file that it leads to.
* `Workspace.place`: a file with the directories on the way to it.
* an instance of `FileAccess` for programs whose state is a workspace.
-/

namespace BlockStore

/-- Directories and files. -/
inductive FileTree where
  /-- A file. -/
  | file (image : Image)
  /-- A directory with its entries by name. -/
  | directory (entries : List (String × FileTree))

namespace FileTree

/-- Entries of a directory with the one of a name set. -/
def setEntry (entries : List (String × FileTree)) (name : String) (t : FileTree) :
    List (String × FileTree) :=
  match entries with
  | [] => [(name, t)]
  | (n, u) :: rest => if n = name then (n, t) :: rest else (n, u) :: setEntry rest name t

/-- The entries of a directory; a file has none. -/
def entries : FileTree → List (String × FileTree)
  | .file _ => []
  | .directory entries => entries

/-- What stands at the end of a list of names. -/
def at? (t : FileTree) : List String → Option FileTree
  | [] => some t
  | name :: rest => (t.entries.lookup name).bind fun u => u.at? rest

/-- The tree with something set at the end of a list of names, directories being made on the
way. -/
def setAt (t : FileTree) (u : FileTree) : List String → FileTree
  | [] => u
  | name :: rest =>
    let inner := (t.entries.lookup name).getD (.directory [])
    .directory (setEntry t.entries name (inner.setAt u rest))

end FileTree

/-- A tree of files and the directory where relative paths start. -/
structure Workspace where
  /-- The tree. -/
  root : FileTree
  /-- The names on the way from the root to the directory. -/
  here : List String

namespace Workspace

/-- The greatest length of a name in a directory. -/
def maxNameSize : Nat := 255

/-- The greatest length of a path. -/
def maxPathSize : Nat := 4095

/-- The names in a path, which slashes keep apart. -/
def namesIn (path : String) : List String := (path.toList.splitOn '/').map String.ofList

/-- Follows one name from a place in the tree, which must be a directory. -/
def step (w : Workspace) (place : List String) (name : String) :
    Except SystemError (List String) :=
  match w.root.at? place with
  | none => .error .noSuchFile
  | some (.file _) => .error .notADirectory
  | some (.directory _) =>
    if maxNameSize < name.utf8ByteSize then .error .nameTooLong
    else if name = "" ∨ name = "." then .ok place
    else if name = ".." then .ok place.dropLast
    else .ok (place ++ [name])

/-- Follows names from a place in the tree. Whether anything has the last name is left open. -/
def follow (w : Workspace) : List String → List String → Except SystemError (List String)
  | place, [] => .ok place
  | place, name :: rest => do w.follow (← w.step place name) rest

/-- The place where a path starts and the names in it. -/
def parts (w : Workspace) (path : String) : Except SystemError (List String × List String) :=
  if path.toList.any fun c => c.toNat = 0 then .error .nulInName
  else if maxPathSize < path.utf8ByteSize then .error .nameTooLong
  else if path = "" then .error .noSuchFile
  else
    let start := if path.startsWith "/" then [] else w.here
    .ok (start, namesIn path)

/-- The place in the tree that a path leads to. -/
def resolve (w : Workspace) (path : String) : Except SystemError (List String) := do
  let (start, names) ← w.parts path
  w.follow start names

/-- The path leads to a file or a directory. -/
def has (w : Workspace) (path : String) : Bool :=
  match w.resolve path with
  | .ok place => (w.root.at? place).isSome
  | .error _ => false

/-- The contents of the file that a path leads to. -/
def read (w : Workspace) (path : String) : Except SystemError Image := do
  match w.root.at? (← w.resolve path) with
  | none => throw .noSuchFile
  | some (.directory _) => throw .isADirectory
  | some (.file image) => return image

/-- The names without the empty ones at their end, which slashes at the end of a path leave. -/
def trimEmpty (names : List String) : List String :=
  (names.reverse.dropWhile (· = "")).reverse

/-- The place of a file that is to be written, in a directory that is there. A path that ends in a
slash means a directory, whether there is one or not. -/
def target (w : Workspace) (path : String) : Except SystemError (List String) := do
  let (start, names) ← w.parts path
  let kept := trimEmpty names
  let place ← w.step (← w.follow start kept.dropLast) "."
  if kept.length < names.length ∧ kept.getLast? ∉ [some ".", some ".."] then
    throw .isADirectory
  let place ← w.step place (kept.getLast?.getD ".")
  match w.root.at? place with
  | some (.directory _) => throw .isADirectory
  | _ => return place

/-- The workspace after the file that a path leads to was made anew. -/
def write (w : Workspace) (path : String) (image : Image) : Except SystemError Workspace := do
  let place ← w.target path
  return { w with root := w.root.setAt (.file image) place }

/-- The names in a path one after the other, two points leading back. -/
def place (w : Workspace) (path : String) (image : Image) : Workspace :=
  let names := (namesIn path).foldl (fun place name =>
    if name = "" ∨ name = "." then place
    else if name = ".." then place.dropLast
    else place ++ [name]) (if path.startsWith "/" then [] else w.here)
  { w with root := w.root.setAt (.file image) names }

instance : FileAccess (StateM Workspace) where
  fileExists path := do return (← get).has path
  readFile path := do return (← get).read path
  writeFile path image := do
    match (← get).write path image with
    | .ok w =>
      set w
      return .ok ()
    | .error e => return .error e

end Workspace

end BlockStore
