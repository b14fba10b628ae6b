import BlockStore.Config.Basic
import BlockStore.Error

/-!
# Requests

What a command line asks for, once it is understood.

## Main definitions

* `Request`: the commands with their operands and options.
* `Options`: the options that every command takes.
* `Invocation`: both together.
-/

namespace BlockStore

/-- How a volume is to be made. -/
structure FormatRequest where
  /-- It deduplicates. -/
  dedup : Bool
  /-- The file is first made this large. -/
  size : Option UInt64
  /-- The number of slots; without one as many as fit. -/
  slots : Option UInt32
  /-- A volume that is there already is overwritten. -/
  force : Bool
deriving DecidableEq

/-- A command. -/
inductive Request where
  /-- Make a volume. -/
  | format (how : FormatRequest)
  /-- Show the superblock and the usage. -/
  | stat (json : Bool)
  /-- Check the volume, and repair it if asked to. -/
  | check (repair json : Bool)
  /-- Store a value, from the standard input if no file is named. -/
  | put (key : Key) (file : Option String)
  /-- Fetch a value, to the standard output if no file is named. -/
  | get (key : Key) (output : Option String)
  /-- Delete a key. -/
  | remove (key : Key)
  /-- Give the value of one key the name of another. -/
  | rename (old new : Key)
  /-- List the keys, with what is known of them if `long`. -/
  | list (long : Bool)
  /-- Show the settings. -/
  | showConfig
  /-- Show where the settings are kept. -/
  | configPaths
deriving DecidableEq

/-- The options that every command takes. -/
structure Options where
  /-- Path of the device. -/
  device : Option String
  /-- Steps by which the log level is raised. -/
  verbosity : Nat
  /-- Only errors are reported. -/
  quiet : Bool
deriving DecidableEq

/-- The log level under some settings. -/
def Options.logLevel (o : Options) (c : Config) : LogLevel :=
  if o.quiet then .error else c.logLevel.louder o.verbosity

/-- The path of the device under some settings. -/
def Options.devicePath (o : Options) (c : Config) : Option String := o.device <|> c.path

/-- A command line. -/
structure Invocation where
  /-- The options that every command takes. -/
  options : Options
  /-- The command. -/
  request : Request
deriving DecidableEq

end BlockStore
