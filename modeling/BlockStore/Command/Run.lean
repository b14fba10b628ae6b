import BlockStore.Command.Args
import BlockStore.Command.Report
import BlockStore.Config.File
import BlockStore.FileAccess
import BlockStore.Volume.Mount

/-!
# Running commands

A command reaches the volume, the settings and the values through files, so a run is a program over
`FileAccess`. It works on the volume in memory and writes the file back after each action that has
changed it, whether the action succeeded or not.

## Main definitions

* `Failure`: why a command failed, with the causes below it; `Failure.render` is its text.
* `CommandM`: the parts of commands, which print and may fail.
* `Session`: what a command finds besides the files.
* `Request.run`: carries out a request.
* `runCommand`: carries out a command line; its `Outcome` is all that is seen of it but the files.
-/

namespace BlockStore

/-! ### Failures -/

/-- Why a command failed. -/
structure Failure where
  /-- What failed. -/
  message : String
  /-- Why, one cause below the other. -/
  causes : List String := []
deriving DecidableEq

namespace Failure

/-- The causes with their numbers, from `n` on. -/
def numbered (n : Nat) : List String → String
  | [] => ""
  | cause :: rest => s!"{Report.rightAligned 5 n}: {cause}\n" ++ numbered (n + 1) rest

/-- The text of a failure. Causes have numbers if there are several. -/
def render (f : Failure) : String :=
  s!"Error: {f.message}\n" ++
    match f.causes with
    | [] => ""
    | [cause] => s!"\nCaused by:\n    {cause}\n"
    | causes => "\nCaused by:\n" ++ numbered 0 causes

/-- The texts of a store error: its own, and below it that of the device. -/
def textsOf (e : StoreError) : List String :=
  match e with
  | .device cause => [e.message, cause.message]
  | _ => [e.message]

/-- A failure for the causes below some work, or for the first of them if nobody says what the work
was. -/
def ofTexts (work : Option String) (texts : List String) : Failure :=
  match work with
  | some message => ⟨message, texts⟩
  | none => ⟨texts.headD "", texts.tail⟩

end Failure

/-! ### Parts of commands -/

/-- Parts of commands. What was printed before a failure stays printed. -/
abbrev CommandM (m : Type → Type) := ExceptT Failure (StateT ByteArray m)

/-- What a command finds besides the files. -/
structure Session (m : Type → Type) where
  /-- The environment. -/
  env : String → Option String
  /-- The home directory of the user, if there is one. -/
  home : Option String
  /-- The length up to which a file can grow. -/
  limit : Nat
  /-- Reads the standard input to its end. -/
  input : m ByteArray
  /-- The time. -/
  now : Timestamp

section

variable {m : Type → Type} [Monad m]

/-- Prints bytes. -/
def printBytes (bytes : ByteArray) : CommandM m Unit := modify (· ++ bytes)

/-- Prints a text. -/
def print (s : String) : CommandM m Unit := printBytes s.toUTF8

/-- The result of work on a file. -/
def ofSystem {α : Type} (work : String) (r : Except SystemError α) : CommandM m α :=
  match r with
  | .ok a => return a
  | .error e => throw ⟨work, [e.message]⟩

/-- The result of work on a volume. -/
def ofStore {α : Type} (work : Option String) (r : Except StoreError α) : CommandM m α :=
  match r with
  | .ok a => return a
  | .error e => throw (.ofTexts work (Failure.textsOf e))

variable [FileAccess m]

instance : FileAccess (CommandM m) where
  fileExists path := liftM (fileExists path : m _)
  readFile path := liftM (readFile path : m _)
  writeFile path image := liftM (writeFile path image : m _)

/-- The contents of a file. -/
def load (work path : String) : CommandM m Image := do
  ofSystem work (← readFile path)

/-- Makes a file anew. -/
def save (work path : String) (image : Image) : CommandM m Unit := do
  ofSystem work (← writeFile path image)

/-- Writes a device back to its file if it was written to since `before`. -/
def writeBack (path : String) (before after : Device) : CommandM m Unit := do
  if before.log.size < after.log.size then
    save s!"Failed to write {path}" path after.image

/-- Acts on the device in a file. -/
def onFile {α : Type} (work : Option String) (path : String) (d : Device) (act : DeviceM α) :
    CommandM m α := do
  match act d with
  | .ok a after =>
    writeBack path d after
    return a
  | .error e after =>
    writeBack path d after
    ofStore work (.error e)

/-- Acts on the volume in a file. -/
def onVolume {α : Type} (path : String) (v : Volume) (act : VolumeM α) : CommandM m α := do
  match act v with
  | .ok a after =>
    writeBack path v.device after.device
    return a
  | .error e after =>
    writeBack path v.device after.device
    ofStore none (.error e)

/-- Mounts the volume in a file. -/
def mountFile (limit : Nat) (path : String) (repair : Bool) : CommandM m Volume := do
  let image ← load s!"Failed to open {path}" path
  onFile (some s!"Failed to mount {path}") path (.ofFile limit image) (Volume.mount repair)

/-! ### Commands -/

/-- The file for a new volume. With a size it is made or resized first. -/
def obtainFile (limit : Nat) (path : String) (size : Option UInt64) : CommandM m Image := do
  match size with
  | some size => ofSystem s!"Failed to create {path}" (← createFile limit path size.toNat)
  | none => load s!"Failed to open {path} (use --size to create it)" path

/-- Refuses a file that holds a volume. What is not there holds none. -/
def refuseVolume (limit : Nat) (path : String) : CommandM m Unit := do
  if ← fileExists path then
    let image ← load s!"Failed to open {path}" path
    if Superblock.probe (.ofFile limit image) then
      throw ⟨s!"{path} already holds a kbfs volume; pass --force to reformat it", []⟩

/-- Makes a volume. -/
def runFormat (limit : Nat) (path : String) (how : FormatRequest) (config : Config) :
    CommandM m Unit := do
  let dedup := how.dedup || config.dedup
  if !how.force then
    refuseVolume limit path
  let image ← obtainFile limit path (how.size <|> config.sizeBytes)
  let layout ← ofStore none (match how.slots with
    | some n => Layout.forBlocks n.toNat dedup
    | none => Layout.forDevice image.size dedup)
  let v ← onFile (some s!"Failed to format {path}") path (.ofFile limit image) (Volume.format layout)
  print (Report.formatted path v.superblock dedup)

/-- Shows a volume. -/
def runStat (limit : Nat) (path : String) (json : Bool) : CommandM m Unit := do
  let v ← mountFile limit path false
  let stats ← ofStore none v.statfs
  if json then
    print ((Report.usageJson path v.superblock stats).pretty ++ "\n")
  else
    print (Report.usage path v.superblock stats)

/-- Checks a volume. -/
def runCheck (limit : Nat) (path : String) (repair json : Bool) : CommandM m Unit := do
  let v ← mountFile limit path false
  let report ← onVolume path v (Volume.check repair)
  if json then
    print ((Report.checkJson report).pretty ++ "\n")
  else
    print (Report.check report)
  if !report.isClean && !repair then
    throw ⟨s!"{report.problemCount} problem(s) found; run `kbfs fsck --repair` to fix them", []⟩

/-- Stores a value. -/
def runPut (session : Session m) (path : String) (v : Volume) (key : Key)
    (file : Option String) : CommandM m Unit := do
  let data ← match file with
    | some file => load s!"Failed to read {file}" file
    | none => pure (.ofBytes (← liftM session.input))
  if blockSize < data.size then
    throw ⟨s!"value is larger than one block ({blockSize} bytes)", []⟩
  discard (onVolume path v (Volume.put key data.toBytes session.now session.now))

/-- Fetches a value. -/
def runGet (v : Volume) (key : Key) (output : Option String) : CommandM m Unit := do
  let b ← ofStore none (v.get key)
  match output with
  | some file => save s!"Failed to write {file}" file (.ofBytes b.bytes)
  | none => printBytes b.bytes

/-- Lists keys. -/
def listEntries (v : Volume) (long : Bool) :
    List (Except StoreError (Nat × Key)) → CommandM m Unit
  | [] => return
  | entry :: rest => do
    let (_, key) ← ofStore none entry
    if long then
      let info ← ofStore none (v.stat key)
      print (Report.entryLine key info ++ "\n")
    else
      print (key.encode ++ "\n")
    listEntries v long rest

/-! ### Settings -/

/-- The path of a file below a directory. -/
def joinPath (directory file : String) : String :=
  if directory = "" ∨ directory.endsWith "/" then directory ++ file else directory ++ "/" ++ file

/-- The path of the settings of the user, if there is a home directory. -/
def homeConfigPath (home : Option String) : Option String :=
  home.map fun directory => joinPath directory Config.homeFile

/-- What is found at a path. A file is read only if it is there, so that one which is there and cannot
be read is told from one which is not. -/
def findFile (path : String) : m Config.Found := do
  if ← fileExists path then return some ((← readFile path).map Image.toBytes)
  else return none

/-- The settings in effect. -/
def loadConfig (home : Option String) (env : String → Option String) : m Config := do
  let user ← match homeConfigPath home with
    | some path => findFile path
    | none => pure none
  let project ← findFile Config.projectFile
  return Config.effective [user, project] env

/-- Shows the settings. -/
def runShowConfig (config : Config) : CommandM m Unit :=
  match config.toToml with
  | .ok text => print text
  | .error e => throw ⟨e.message, []⟩

/-- Shows where the settings are kept. -/
def runConfigPaths (home : Option String) : CommandM m Unit := do
  print ("Global:  " ++ (homeConfigPath home).getD "(no home directory)" ++ "\n")
  print (s!"Project: {Config.projectFile}\n")

/-! ### Command lines -/

/-- The path of the device, which must be known. -/
def requireDevice (path : Option String) : CommandM m String :=
  match path with
  | some path => return path
  | none =>
    throw ⟨"no device given: pass --device, set KBFS_DEVICE or [device] path in the config", []⟩

/-- Carries out a request. -/
def Request.run (request : Request) (session : Session m) (config : Config)
    (device : Option String) : CommandM m Unit := do
  match request with
  | .showConfig => runShowConfig config
  | .configPaths => runConfigPaths session.home
  | .format how => runFormat session.limit (← requireDevice device) how config
  | .stat json => runStat session.limit (← requireDevice device) json
  | .check repair json => runCheck session.limit (← requireDevice device) repair json
  | .put key file => do
    let path ← requireDevice device
    runPut session path (← mountFile session.limit path config.repairOnMount) key file
  | .get key output => do
    let path ← requireDevice device
    runGet (← mountFile session.limit path config.repairOnMount) key output
  | .remove key => do
    let path ← requireDevice device
    onVolume path (← mountFile session.limit path config.repairOnMount) (Volume.remove key)
  | .rename old new => do
    let path ← requireDevice device
    onVolume path (← mountFile session.limit path config.repairOnMount) (Volume.rename old new)
  | .list long => do
    let path ← requireDevice device
    let v ← mountFile session.limit path config.repairOnMount
    listEntries v long v.entries

/-- What is seen of a run. -/
structure Outcome where
  /-- The exit code: 0 for success, 1 for failure, 2 for a wrong command line. -/
  code : Nat
  /-- The standard output. -/
  output : ByteArray
  /-- The text of the failure. -/
  error : Option String

/-- The name and the version of the program. -/
def versionLine : String := "kbfs 0.1.0\n"

/-- Carries out a command line. -/
def runCommand (session : Session m) (args : List String) : m Outcome := do
  match Invocation.parse args with
  | .error .usage => return ⟨2, .empty, none⟩
  | .error .help => return ⟨0, usageText.toUTF8, none⟩
  | .error .version => return ⟨0, versionLine.toUTF8, none⟩
  | .ok invocation =>
    let config ← loadConfig session.home session.env
    let device := invocation.options.devicePath config
    let (result, output) ← (invocation.request.run session config device : CommandM m Unit) .empty
    match result with
    | .ok () => return ⟨0, output, none⟩
    | .error failure => return ⟨1, output, some failure.render⟩

end

end BlockStore
