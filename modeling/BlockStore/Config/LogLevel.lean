import BlockStore.Text.Blank

/-!
# Log levels

How much a program reports about its work, from errors alone to every step.

## Main definitions

* `LogLevel`: the levels, quietest first, ordered by how much they report.
* `LogLevel.parse?`: the level that a name stands for.
* `LogLevel.louder`: a level raised by some steps.
* `Component`: the parts of the program that report.
-/

namespace BlockStore

/-- How much is reported. -/
inductive LogLevel where
  /-- Errors. -/
  | error
  /-- Warnings as well. -/
  | warn
  /-- What was done as well. -/
  | info
  /-- How it was done as well. -/
  | debug
  /-- Every step. -/
  | trace
deriving DecidableEq

namespace LogLevel

/-- The place of a level, from 0 for the quietest. -/
def rank : LogLevel → Nat
  | .error => 0
  | .warn => 1
  | .info => 2
  | .debug => 3
  | .trace => 4

instance : LE LogLevel := ⟨fun a b => a.rank ≤ b.rank⟩

instance (a b : LogLevel) : Decidable (a ≤ b) := inferInstanceAs (Decidable (a.rank ≤ b.rank))

/-- The name of a level. -/
def name : LogLevel → String
  | .error => "error"
  | .warn => "warn"
  | .info => "info"
  | .debug => "debug"
  | .trace => "trace"

/-- The next level, the loudest being its own. -/
def next : LogLevel → LogLevel
  | .error => .warn
  | .warn => .info
  | .info => .debug
  | .debug => .trace
  | .trace => .trace

/-- The level raised by some steps. -/
def louder (level : LogLevel) (steps : Nat) : LogLevel := steps.repeat next level

/-- The level that a name stands for, in any case and with blanks around it. The error is the name
that stands for none. -/
def parse (s : String) : Except String LogLevel :=
  match lowered (trimmed s) with
  | "error" => .ok .error
  | "warn" => .ok .warn
  | "warning" => .ok .warn
  | "info" => .ok .info
  | "debug" => .ok .debug
  | "trace" => .ok .trace
  | unknown => .error unknown

/-- The text about a name that stands for no level. -/
def unknownMessage (name : String) : String := s!"unknown log level: {name}"

/-- The level that a setting stands for; what stands for none means warnings. -/
def ofSetting (s : String) : LogLevel :=
  match parse s with
  | .ok level => level
  | .error _ => .warn

end LogLevel

/-- A part of the program that reports. -/
inductive Component where
  /-- The commands. -/
  | cli
  /-- Formatting. -/
  | mkfs
  /-- Checking. -/
  | fsck
deriving DecidableEq

/-- The name of a component. -/
def Component.name : Component → String
  | .cli => "CLI"
  | .mkfs => "MKFS"
  | .fsck => "FSCK"

/-- All components. -/
def Component.all : List Component := [.cli, .mkfs, .fsck]

end BlockStore
