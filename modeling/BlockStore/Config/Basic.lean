import BlockStore.Config.LogLevel

/-!
# Settings

What the commands do unless they are told otherwise, and the environment variables that change it.

## Main definitions

* `Config`: the settings.
* `parseSwitch?`: the truth value that a word stands for.
* `Config.override`: the settings changed by the environment.
-/

namespace BlockStore

/-- The settings of the commands. -/
structure Config where
  /-- Path of the device that holds the volume. -/
  path : Option String := none
  /-- New volumes deduplicate. -/
  dedup : Bool := false
  /-- Size of a new image file; without one the file must be there. -/
  sizeBytes : Option UInt64 := none
  /-- Volumes are repaired when they are mounted. -/
  repairOnMount : Bool := false
  /-- Name of a log level. -/
  level : String := "warn"
deriving DecidableEq

/-- The truth value that a word stands for, in any case and with blanks around it. -/
def parseSwitch? (s : String) : Option Bool :=
  match lowered (trimmed s) with
  | "1" => some true
  | "true" => some true
  | "yes" => some true
  | "on" => some true
  | "0" => some false
  | "false" => some false
  | "no" => some false
  | "off" => some false
  | _ => none

namespace Config

/-- The log level that the settings mean. -/
def logLevel (c : Config) : LogLevel := .ofSetting c.level

/-- The environment variable that names the device. -/
def deviceVariable : String := "KBFS_DEVICE"

/-- The environment variable that turns deduplication of new volumes on or off. -/
def dedupVariable : String := "KBFS_DEDUP"

/-- The environment variable that turns repair on mounting on or off. -/
def repairVariable : String := "KBFS_REPAIR_ON_MOUNT"

/-- The settings changed by the environment. A switch whose word stands for no truth value changes
nothing. -/
def override (c : Config) (env : String → Option String) : Config :=
  { c with
    path := (env deviceVariable) <|> c.path
    dedup := ((env dedupVariable).bind parseSwitch?).getD c.dedup
    repairOnMount := ((env repairVariable).bind parseSwitch?).getD c.repairOnMount }

end Config

end BlockStore
