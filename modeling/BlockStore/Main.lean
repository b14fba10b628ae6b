import BlockStore.Command.Run
import Std.Internal.UV.System
import Std.Time.DateTime.Timestamp

/-!
# The program

Carries out its command line on the files of the system. The exit code is 0 for success, 1 for a
failure, whose text goes to the standard error, and 2 for a command line that cannot be understood.

## Main definitions

* `systemError`: a report of the system.
* `homeDirectory`: the home directory of the user.
* `main`: the program.
-/

namespace BlockStore

/-- The number of an error of the system; some calls report it below zero. -/
def errorNumber (code : UInt32) : Nat :=
  if 1 <<< 31 ≤ code.toNat then (1 <<< 32) - code.toNat else code.toNat

/-- The report of the system in an error. -/
def systemError (e : IO.Error) : SystemError :=
  match e with
  | .noFileOrDirectory _ _ _ => .noSuchFile
  | .inappropriateType _ code text => .ofNumber (errorNumber code) text
  | .invalidArgument _ code text => .ofNumber (errorNumber code) text
  | .permissionDenied _ code text => .ofNumber (errorNumber code) text
  | .resourceExhausted _ code text => .ofNumber (errorNumber code) text
  | .noSuchThing _ code text => .ofNumber (errorNumber code) text
  | .otherError code text => .ofNumber (errorNumber code) text
  | e => .other (toString e) 5

/-- The result of an action on the system. -/
def attempted {α : Type} (act : IO α) : IO (Except SystemError α) := do
  try return .ok (← act)
  catch e => return .error (systemError e)

/-- The system can follow a path to its end. -/
def leadsSomewhere (path : String) : IO Bool := do
  try
    discard (IO.FS.realPath path)
    return true
  catch _ => return false

instance : FileAccess IO where
  fileExists := leadsSomewhere
  readFile path := attempted do return .ofBytes (← IO.FS.readBinFile path)
  writeFile path image := attempted (IO.FS.writeBinFile path image.toBytes)

/-- The time that the clock of the system shows. -/
def clockTime : IO Timestamp := do
  let nanos := (← Std.Time.Timestamp.now).toNanosecondsSinceUnixEpoch.val
  return .ofParts 0 nanos.toNat

/-- The variables of the environment that commands look at. -/
def environment : IO (String → Option String) := do
  let names := [Config.deviceVariable, Config.dedupVariable, Config.repairVariable]
  let values ← names.mapM fun name => do return (name, ← IO.getEnv name)
  return fun name => (values.lookup name).join

/-- The home directory that the system has on record for the user. -/
def recordedHome : IO (Option String) := do
  try return (← Std.Internal.UV.System.osGetPasswd).homedir
  catch _ => return none

/-- The home directory of the user: the one that the environment names, else the one on record. -/
def homeDirectory : IO (Option String) := do
  let named := (← IO.getEnv "HOME").filter (· ≠ "")
  return named <|> (← recordedHome).filter (· ≠ "")

/-- The greatest number of bytes that a file can be said to have. What is too long for its file system
is refused by the system. -/
def greatestLength : Nat := (1 <<< 63) - 1

/-- Reads the standard input to its end. -/
def standardInput : IO ByteArray := do (← IO.getStdin).readBinToEnd

end BlockStore

open BlockStore in
/-- The program. -/
def main (args : List String) : IO UInt32 := do
  let session : Session IO := {
    env := ← environment
    home := ← homeDirectory
    limit := greatestLength
    input := standardInput
    now := ← clockTime }
  let outcome ← runCommand session args
  let stdout ← IO.getStdout
  stdout.write outcome.output
  stdout.flush
  match outcome.error with
  | some text => IO.eprint text
  | none => if outcome.code = 2 then IO.eprint usageText
  return UInt32.ofNat outcome.code
