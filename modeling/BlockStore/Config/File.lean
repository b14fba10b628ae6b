import BlockStore.Config.Basic
import BlockStore.Error
import BlockStore.Toml.Document

/-!
# Configuration files

Settings are kept in TOML files with a section for each purpose. Several files are laid one over the
other before their values are looked at, so a value of the wrong type does no harm when a later file
replaces it.

## Main definitions

* `ConfigError`: why settings cannot be loaded or written.
* `Config.ofTable?`: the settings in a table.
* `Config.Found`: what is found where a file may be.
* `Config.load`: the settings in several files.
* `Config.toToml`: the settings as a file.
-/

namespace BlockStore

/-- Why settings cannot be loaded or written. -/
inductive ConfigError where
  /-- The system cannot read or make the file. -/
  | unreadable (cause : SystemError)
  /-- The file is not in UTF-8. -/
  | notText
  /-- The file is no TOML, or a value has the wrong type. -/
  | malformed
  /-- A size is too large for a TOML integer. -/
  | sizeOutOfRange
deriving DecidableEq

/-- The text of a configuration error. -/
def ConfigError.message : ConfigError → String
  | .unreadable cause => s!"IO error: {cause.message}"
  | .notText => "IO error: stream did not contain valid UTF-8"
  | .malformed => "TOML parse error"
  | .sizeOutOfRange => "TOML serialize error: out-of-range value for u64 type"

namespace Config

open Toml

/-! ### Reading -/

/-- The values of a section by name. A section that is an array gives its values in the order of
the names. -/
def sectionTable? (t : Table) (name : String) (names : List String) : Option Table :=
  match t.get? name with
  | none => some []
  | some (.table entries) => some entries
  | some (.array items) =>
    if items.length ≤ names.length then some (names.zip items) else none
  | some _ => none

/-- A value of a section, `default` if it is missing. -/
def setting? {α : Type} (t : Table) (name : String) (read : Value → Option α) (default : α) :
    Option α :=
  match t.get? name with
  | none => some default
  | some v => read v

/-- A text; a point in time counts as its text. -/
def text? : Value → Option String
  | .string s => some s
  | .datetime d => some d.render
  | _ => none

/-- A truth value. -/
def switch? : Value → Option Bool
  | .boolean b => some b
  | _ => none

/-- A number of bytes. -/
def size? : Value → Option UInt64
  | .integer n => if 0 ≤ n then some (UInt64.ofNat n.toNat) else none
  | _ => none

/-- The settings in a table; what is missing has its default, and unknown keys mean nothing. -/
def ofTable? (t : Table) : Option Config := do
  let device ← sectionTable? t "device" ["path"]
  let format ← sectionTable? t "format" ["dedup", "size_bytes"]
  let mount ← sectionTable? t "mount" ["repair_on_mount"]
  let logging ← sectionTable? t "logging" ["level"]
  let c : Config := {}
  return {
    path := ← setting? device "path" (fun v => (text? v).map some) c.path
    dedup := ← setting? format "dedup" switch? c.dedup
    sizeBytes := ← setting? format "size_bytes" (fun v => (size? v).map some) c.sizeBytes
    repairOnMount := ← setting? mount "repair_on_mount" switch? c.repairOnMount
    level := ← setting? logging "level" text? c.level }

/-- What is found where a file may be: nothing, or what reading it brings. -/
abbrev Found : Type := Option (Except SystemError ByteArray)

/-- The table in a file that is there. -/
def readTable (contents : Except SystemError ByteArray) : Except ConfigError Table :=
  match contents with
  | .error cause => .error (.unreadable cause)
  | .ok bytes =>
    match String.fromUTF8? bytes with
    | none => .error .notText
    | some text =>
      match parse text with
      | none => .error .malformed
      | some t => .ok t

/-- The tables of several files laid one over the other, the last on top. Files that are not there are
skipped, and a table that is laid over nothing stays as it is. -/
def mergeFiles (base : Table) : List Found → Except ConfigError Table
  | [] => .ok base
  | none :: rest => mergeFiles base rest
  | some contents :: rest => do
    let t ← readTable contents
    mergeFiles (if base.isEmpty then t else base.merge t) rest

/-- The settings in several files, a later one over an earlier one. -/
def load (files : List Found) : Except ConfigError Config := do
  match ofTable? (← mergeFiles [] files) with
  | some c => return c
  | none => throw .malformed

/-- The settings that the commands work with: those in the files unless they cannot be loaded, and
the environment over them. -/
def effective (files : List Found) (env : String → Option String) : Config :=
  match load files with
  | .ok c => c.override env
  | .error _ => ({} : Config).override env

/-! ### Writing -/

/-- A line that gives a key its value. -/
def writeLine (key value : String) : String := key ++ " = " ++ value ++ "\n"

/-- A truth value. -/
def writeSwitch (b : Bool) : String := if b then "true" else "false"

/-- The line of a setting that may be missing. -/
def writeOptional (key : String) : Option String → String
  | some value => writeLine key value
  | none => ""

/-- The settings as a TOML file. Integers of TOML have 63 bits and a sign. -/
def toToml (c : Config) : Except ConfigError String :=
  if c.sizeBytes.any fun n => 1 <<< 63 ≤ n.toNat then .error .sizeOutOfRange
  else .ok (
    "[device]\n"
      ++ writeOptional "path" (c.path.map fun s => String.ofList (writeString s))
      ++ "\n[format]\n"
      ++ writeLine "dedup" (writeSwitch c.dedup)
      ++ writeOptional "size_bytes" (c.sizeBytes.map fun n => toString n.toNat)
      ++ "\n[mount]\n"
      ++ writeLine "repair_on_mount" (writeSwitch c.repairOnMount)
      ++ "\n[logging]\n"
      ++ writeLine "level" (String.ofList (writeString c.level)))

/-- Path of the settings of one user, below the home directory. -/
def homeFile : String := ".kbfs/config.toml"

/-- Path of the settings of one project. -/
def projectFile : String := ".kbfs/config.toml"

end Config

end BlockStore
