import BlockStore.Toml.Value

/-!
# TOML tables while they are read

A document defines its tables piece by piece, by headers and by dotted keys, and may define no piece
twice. Which further pieces a table takes depends on how it came about, so a table that is being
read remembers that until the document is complete.

## Main definitions

* `Toml.Origin`: how a table came about.
* `Toml.Draft`: a value of a document that is being read.
* `Toml.KeyPath`: a dotted key.
* `Toml.Draft.within`: changes the table that a path leads to.
* `Toml.Draft.define`: gives a key its value.
* `Toml.Draft.openTable`, `Toml.Draft.openElement`: make room for what follows a header.
* `Toml.Draft.finish`: the table that was read.
-/

namespace BlockStore

namespace Toml

/-- How a table came about. -/
inductive Origin where
  /-- By a header of its own. -/
  | header
  /-- As a step on the way to another header's table. -/
  | implied
  /-- As a step of a dotted key. -/
  | dotted
deriving DecidableEq

/-- A value of a document that is being read. Entries and tables are kept with the latest first. -/
inductive Draft where
  /-- A value that takes no more pieces. -/
  | leaf (v : Value)
  /-- A table and how it came about. -/
  | table (origin : Origin) (entries : List (String × Draft))
  /-- Tables with one header. -/
  | tables (elements : List (List (String × Draft)))

/-- A dotted key: the keys that lead to a table, and the key in it. -/
structure KeyPath where
  /-- The way to the table. -/
  parents : List String
  /-- The key in it. -/
  last : String

namespace Draft

/-- Entries of a table that is being read, the latest first. -/
abbrev Entries := List (String × Draft)

/-- The entries with the draft of a key that is there set anew, in its place. -/
def set (entries : Entries) (key : String) (d : Draft) : Entries :=
  match entries with
  | [] => []
  | (k, e) :: rest => if k = key then (k, d) :: rest else (k, e) :: set rest key d

/-- Changes the table that a path leads to. Steps that are missing become tables of origin `step`,
and of tables with one header the latest is meant. A dotted key does not lead through a table that
has a header. -/
def within (step : Origin) (change : Origin → Entries → Option Entries) :
    List String → Origin → Entries → Option Entries
  | [], origin, entries => change origin entries
  | key :: path, _, entries =>
    match entries.lookup key with
    | none => do
      let inner ← within step change path step []
      return (key, .table step inner) :: entries
    | some (.leaf _) => none
    | some (.table origin inner) =>
      if step = .dotted ∧ origin = .header then none
      else do
        let inner ← within step change path origin inner
        return set entries key (.table origin inner)
    | some (.tables (latest :: before)) => do
      let latest ← within step change path .header latest
      return set entries key (.tables (latest :: before))
    | some (.tables []) => none

/-- Gives a key its value. The key must be new, and so must every table on the way to it but for
those of other dotted keys. -/
def define (key : KeyPath) (v : Value) (entries : Entries) : Option Entries :=
  within .dotted (fun origin inner =>
    if key.parents ≠ [] ∧ origin ≠ .dotted then none
    else if (inner.lookup key.last).isSome then none
    else some ((key.last, .leaf v) :: inner)) key.parents .header entries

/-- The entries after a table's header. The table must be new, or implied by other headers; its
place in the order is that of its own header. -/
def openTable (key : KeyPath) (entries : Entries) : Option Entries :=
  within .implied (fun _ inner =>
    match inner.lookup key.last with
    | none => some ((key.last, .table .header []) :: inner)
    | some (.table .implied rows) =>
      some ((key.last, .table .header rows) :: inner.filter (·.1 ≠ key.last))
    | some _ => none) key.parents .header entries

/-- The entries after the header of one more table of several. -/
def openElement (key : KeyPath) (entries : Entries) : Option Entries :=
  within .implied (fun _ inner =>
    match inner.lookup key.last with
    | none => some ((key.last, .tables [[]]) :: inner)
    | some (.tables elements) => some (set inner key.last (.tables ([] :: elements)))
    | some _ => none) key.parents .header entries

/-- Gives a key its value in the table that the header `path` opened. -/
def defineIn (path : List String) (key : KeyPath) (v : Value) (entries : Entries) :
    Option Entries :=
  within .implied (fun _ inner => define key v inner) path .header entries

mutual

/-- The value that was read. -/
def toValue : Draft → Value
  | .leaf v => v
  | .table _ entries => .table (finishOnto entries [])
  | .tables elements => .array (finishAllOnto elements [])

/-- The table that was read, `later` being what comes after the entries. -/
def finishOnto : List (String × Draft) → (later : Table) → Table
  | [], later => later
  | (key, d) :: rest, later => finishOnto rest ((key, toValue d) :: later)

/-- The tables that were read, `later` being what comes after them. -/
def finishAllOnto : List (List (String × Draft)) → (later : List Value) → List Value
  | [], later => later
  | entries :: rest, later => finishAllOnto rest (.table (finishOnto entries []) :: later)

end

/-- The table that was read, in the order of the document. -/
def finish (entries : Entries) : Table := finishOnto entries []

end Draft

end Toml

end BlockStore
