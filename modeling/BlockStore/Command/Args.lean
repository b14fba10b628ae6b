import BlockStore.Command.Request

/-!
# Command lines

A command line names a command and, for some, a command below it. Each level takes options of its
own and those that every level takes, before and after what else stands there; a level may give the
latter again, and then the innermost one counts. Arguments are read from left to right, and the
first one that is wrong or asks for help or the version decides.

## Main definitions

* `Command`: the levels of a command line, with their options, operands and commands below them.
* `Flag`, `Setting`: the options, and one as it was given.
* `Command.scan`: reads the arguments of a level and of those below it.
* `Invocation.parse`: reads a whole command line; `usageText` tells how to write one.
-/

namespace BlockStore

/-- A level of a command line. -/
inductive Command where
  /-- The program itself. -/
  | top
  /-- Make a volume. -/
  | mkfs
  /-- Show a volume. -/
  | stat
  /-- Check a volume. -/
  | fsck
  /-- Store a value. -/
  | put
  /-- Fetch a value. -/
  | get
  /-- Delete a key. -/
  | rm
  /-- Rename a key. -/
  | mv
  /-- List keys. -/
  | ls
  /-- Settings. -/
  | config
  /-- Show the settings. -/
  | configShow
  /-- Show where the settings are kept. -/
  | configPath
deriving DecidableEq

/-- An option. -/
inductive Flag where
  /-- Path of the device. -/
  | device
  /-- More log output. -/
  | verbose
  /-- Less log output. -/
  | quiet
  /-- How the command is used. -/
  | help
  /-- Which version this is. -/
  | version
  /-- Deduplicate. -/
  | dedup
  /-- Size of the file. -/
  | size
  /-- Number of slots. -/
  | blocks
  /-- Overwrite a volume. -/
  | force
  /-- Output for programs. -/
  | json
  /-- Repair the volume. -/
  | repair
  /-- File for the value. -/
  | output
  /-- All that is known of the keys. -/
  | long
deriving DecidableEq

/-- An option as it was given. -/
inductive Setting where
  /-- Path of the device. -/
  | device (path : String)
  /-- Size of the file. -/
  | size (bytes : UInt64)
  /-- Number of slots. -/
  | blocks (count : UInt32)
  /-- File for the value. -/
  | output (path : String)
  /-- An option without a value. -/
  | on (flag : Flag)
deriving DecidableEq

/-- A kind of operand. -/
inductive OperandKind where
  /-- A key. -/
  | key
  /-- Path of a file. -/
  | file
deriving DecidableEq

/-- An operand. -/
inductive Operand where
  /-- A key. -/
  | key (k : Key)
  /-- Path of a file. -/
  | file (path : String)
deriving DecidableEq

/-- Why a command line is not carried out. -/
inductive Refusal where
  /-- It is wrong. -/
  | usage
  /-- It asks for help. -/
  | help
  /-- It asks for the version. -/
  | version
deriving DecidableEq

/-! ### Numbers -/

/-- The number that ASCII digits write, after a plus sign or without one. -/
def unsigned? (s : String) : Option Nat :=
  let digits := match s.toList with
    | '+' :: rest => rest
    | cs => cs
  if digits.isEmpty || !digits.all Char.isDigit then none
  else some (digits.foldl (fun n c => 10 * n + (c.toNat - '0'.toNat)) 0)

/-- A number that may have a sign, as long as it is not negative. -/
def signed? (s : String) : Option Nat :=
  match s.toList with
  | '-' :: rest => if !rest.isEmpty && rest.all (· == '0') then some 0 else none
  | _ => unsigned? s

/-- A path, which is not empty. -/
def path? (s : String) : Option String := if s = "" then none else some s

namespace Flag

/-- The name after two dashes. -/
def longName : Flag → String
  | .device => "device"
  | .verbose => "verbose"
  | .quiet => "quiet"
  | .help => "help"
  | .version => "version"
  | .dedup => "dedup"
  | .size => "size"
  | .blocks => "blocks"
  | .force => "force"
  | .json => "json"
  | .repair => "repair"
  | .output => "output"
  | .long => "long"

/-- The letter after one dash. -/
def letter? : Flag → Option Char
  | .device => some 'd'
  | .verbose => some 'v'
  | .quiet => some 'q'
  | .help => some 'h'
  | .version => some 'V'
  | .output => some 'o'
  | .long => some 'l'
  | _ => none

/-- The option has a value. -/
def takesValue : Flag → Bool
  | .device => true
  | .size => true
  | .blocks => true
  | .output => true
  | _ => false

/-- The option may be given several times. -/
def repeats (f : Flag) : Bool := f = .verbose

/-- The option with a value. -/
def withValue? (f : Flag) (value : String) : Option Setting :=
  match f with
  | .device => (path? value).map .device
  | .size => (unsigned? value).bind fun n =>
    if n < 1 <<< 64 then some (.size (UInt64.ofNat n)) else none
  | .blocks => (signed? value).bind fun n =>
    if n < 1 <<< 32 then some (.blocks (UInt32.ofNat n)) else none
  | .output => (path? value).map .output
  | _ => none

end Flag

/-- The option of a setting. -/
def Setting.flag : Setting → Flag
  | .device _ => .device
  | .size _ => .size
  | .blocks _ => .blocks
  | .output _ => .output
  | .on flag => flag

/-- The operand that an argument gives. -/
def OperandKind.read? (kind : OperandKind) (s : String) : Option Operand :=
  match kind with
  | .key => (Key.decode? s).map .key
  | .file => (path? s).map .file

/-- What a level was given. -/
structure Given where
  /-- The options, in order. -/
  settings : List Setting := []
  /-- The operands, in order. -/
  operands : List Operand := []

namespace Given

/-- How often an option was given. -/
def count (g : Given) (f : Flag) : Nat := (g.settings.filter (·.flag = f)).length

/-- An option was given. -/
def has (g : Given) (f : Flag) : Bool := 0 < g.count f

/-- Options that exclude each other were given. -/
def conflicts (g : Given) : Bool := g.has .quiet && g.has .verbose

/-- What was given with one more option, unless that is one too many. -/
def add? (g : Given) (s : Setting) : Option Given :=
  if g.has s.flag && !s.flag.repeats then none
  else some { g with settings := g.settings ++ [s] }

end Given

namespace Command

/-- The options of a level. -/
def flags : Command → List Flag
  | .top => [.version] ++ common
  | .mkfs => [.dedup, .size, .blocks, .force] ++ common
  | .stat => [.json] ++ common
  | .fsck => [.repair, .json] ++ common
  | .get => [.output] ++ common
  | .ls => [.long] ++ common
  | _ => common
where
  /-- The options that every level takes. -/
  common : List Flag := [.device, .verbose, .quiet, .help]

/-- The commands below a level, by name. -/
def below : Command → List (String × Command)
  | .top =>
    [("mkfs", .mkfs), ("stat", .stat), ("fsck", .fsck), ("put", .put), ("get", .get),
      ("rm", .rm), ("mv", .mv), ("ls", .ls), ("config", .config)]
  | .config => [("show", .configShow), ("path", .configPath)]
  | _ => []

/-- The operands of a level, in order. -/
def operands : Command → List OperandKind
  | .put => [.key, .file]
  | .get => [.key]
  | .rm => [.key]
  | .mv => [.key, .key]
  | _ => []

/-- The request of the innermost level, if it has the operands it needs. -/
def request? (c : Command) (g : Given) : Option Request :=
  match c, g.operands with
  | .mkfs, [] => some (.format {
      dedup := g.has .dedup
      size := g.settings.findSome? fun s => match s with | .size n => some n | _ => none
      slots := g.settings.findSome? fun s => match s with | .blocks n => some n | _ => none
      force := g.has .force })
  | .stat, [] => some (.stat (g.has .json))
  | .fsck, [] => some (.check (g.has .repair) (g.has .json))
  | .put, [.key k] => some (.put k none)
  | .put, [.key k, .file path] => some (.put k (some path))
  | .get, [.key k] => some (.get k (g.settings.findSome? fun s =>
      match s with | .output path => some path | _ => none))
  | .rm, [.key k] => some (.remove k)
  | .mv, [.key old, .key new] => some (.rename old new)
  | .ls, [] => some (.list (g.has .long))
  | .configShow, [] => some .showConfig
  | .configPath, [] => some .configPaths
  | _, _ => none

/-- What the help command answers about a command line of names. -/
def helpOn (c : Command) : List String → Refusal
  | [] => .help
  | name :: rest =>
    match c.below.lookup name with
    | some inner => inner.helpOn rest
    | none => if name = "help" ∧ c.below ≠ [] ∧ rest = [] then .help else .usage

/-- What a level does with an option that has no value. -/
def switch (g : Given) (f : Flag) : Except Refusal Given :=
  match f with
  | .help => .error .help
  | .version => .error .version
  | f =>
    match g.add? (.on f) with
    | some g => .ok g
    | none => .error .usage

/-- What a level does with an option and its value. -/
def assign (g : Given) (f : Flag) (value : String) : Except Refusal Given :=
  match (f.withValue? value).bind g.add? with
  | some g => .ok g
  | none => .error .usage

/-- An argument that cannot be the value of an option before it: it starts with a dash and goes
on. -/
def isDashed (s : String) : Bool := s.startsWith "-" && s != "-"

/-- Reads the letters after one dash. Gives back the option that waits for its value in the next
argument, if there is one. -/
def letters (c : Command) (g : Given) : List Char → Except Refusal (Given × Option Flag)
  | [] => .ok (g, none)
  | x :: rest =>
    match c.flags.find? fun f => f.letter? = some x with
    | none => .error .usage
    | some f =>
      if f.takesValue then
        match rest with
        | [] => .ok (g, some f)
        | '=' :: value => do return (← assign g f (String.ofList value), none)
        | value => do return (← assign g f (String.ofList value), none)
      else do c.letters (← switch g f) rest

/-- Reads what stands after two dashes: the name of an option, and its value after an equals
sign. -/
def word (c : Command) (g : Given) (s : List Char) : Except Refusal (Given × Option Flag) :=
  let name := String.ofList (s.takeWhile (· ≠ '='))
  match c.flags.find? fun f => f.longName = name with
  | none => .error .usage
  | some f =>
    match s.dropWhile (· ≠ '='), f.takesValue with
    | [], true => .ok (g, some f)
    | [], false => do return (← switch g f, none)
    | _ :: value, true => do return (← assign g f (String.ofList value), none)
    | _ :: _, false => .error .usage

/-- Reads an operand. -/
def operand (c : Command) (g : Given) (s : String) : Except Refusal Given :=
  match (c.operands[g.operands.length]?).bind fun kind => kind.read? s with
  | some o => .ok { g with operands := g.operands ++ [o] }
  | none => .error .usage

/-- Reads the arguments of a level and of those below it, when `g` was given before. After two
dashes alone, `plain` is set and every argument is an operand. Gives back what each level was given,
the outermost first, and the request. -/
def scan (c : Command) (g : Given) (plain : Bool) :
    List String → Except Refusal (List Given × Request)
  | [] =>
    match c.request? g with
    | some request => if g.conflicts then .error .usage else .ok ([g], request)
    | none => .error .usage
  | a :: rest =>
    if plain then do
      c.scan (← c.operand g a) plain rest
    else
      match c.below.lookup a with
      | some inner => do
        let (levels, request) ← inner.scan {} false rest
        if g.conflicts then throw .usage
        return (g :: levels, request)
      | none =>
        if a = "help" ∧ c.below ≠ [] then .error (c.helpOn rest)
        else if a = "--" then c.scan g true rest
        else if isDashed a then
          match (match a.toList with
            | '-' :: '-' :: s => c.word g s
            | s => c.letters g (s.drop 1)) with
          | .error e => .error e
          | .ok (g, none) => c.scan g false rest
          | .ok (g, some f) =>
            match rest with
            | value :: rest =>
              if isDashed value then .error .usage
              else
                match assign g f value with
                | .ok g => c.scan g false rest
                | .error e => .error e
            | [] => .error .usage
        else do
          c.scan (← c.operand g a) false rest

end Command

/-- How the program is used. -/
def usageText : String :=
  "Usage: kbfs [OPTIONS] <COMMAND>\n\nCommands:\n"
    ++ String.join (Command.top.below.map fun (name, _) => "  " ++ name ++ "\n")
    ++ "\nOptions:\n"
    ++ String.join (Command.top.flags.map fun f => "  --" ++ f.longName ++ "\n")

/-- Reads a command line without the name of the program. -/
def Invocation.parse (args : List String) : Except Refusal Invocation := do
  let (levels, request) ← Command.scan .top {} false args
  let innermost := levels.reverse
  return {
    options := {
      device := innermost.findSome? fun g => g.settings.findSome? fun s =>
        match s with | .device path => some path | _ => none
      verbosity := ((innermost.map (·.count .verbose)).find? (0 < ·)).getD 0
      quiet := levels.any (·.has .quiet) }
    request }

end BlockStore
