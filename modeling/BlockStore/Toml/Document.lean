import BlockStore.Toml.Draft
import BlockStore.Toml.Tagged

/-!
# TOML documents

A document is a list of lines: headers, which open a table, and keys with a value, which go to the
table that was opened last. Values may be nested and span lines.

## Main definitions

* `Toml.readKey`: a dotted key.
* `Toml.readValue`: a value.
* `Toml.Statement`, `Toml.readStatement`: what a line says.
* `Toml.parse`: the table that a document defines.

## Implementation notes

A value is nested in at most `nestingRoom` arrays and inline tables, and a key has at most as many
parts. The recursion is on the room that is left. Loops over the parts of one array, table or
document take one character of the text as it stood at their start for each turn, which is enough
because each part takes at least one character.
-/

namespace BlockStore

namespace Toml

/-- How deep values nest and how many parts a key has at most. -/
def nestingRoom : Nat := 79

/-! ### Blanks and comments -/

/-- A character of a comment. -/
def isCommentChar (c : Char) : Bool := isPlain c

/-- The rest after a comment, which reaches to the end of its line, or `s` if none starts there. -/
def skipComment : List Char → List Char
  | '#' :: rest => rest.dropWhile isCommentChar
  | s => s

/-- The rest after the end of a line or at the end of the text. -/
def lineEnd? : List Char → Option (List Char)
  | [] => some []
  | s => lineBreak? s

/-- The rest of a line on which nothing more than a comment stands. -/
def endOfLine? (s : List Char) : Option (List Char) := lineEnd? (skipComment (skipBlanks s))

/-- The rest after blanks, line breaks and comments, of at most as many lines as `turns` has
characters. -/
def skipLines : (turns s : List Char) → List Char
  | [], s => s
  | _ :: turns, s =>
    let rest := skipBlanks s
    match lineBreak? (skipComment rest) with
    | some r => skipLines turns r
    | none => rest

/-- The rest after blanks, line breaks and comments. -/
def skipSpace (s : List Char) : List Char := skipLines s s

/-! ### Keys -/

/-- A character of a key without quotes. -/
def isKeyChar (c : Char) : Bool := c.isAlphanum || c == '-' || c == '_'

/-- One part of a key, with or without quotes. -/
def readPart : Reader String
  | c :: rest =>
    if c = '"' ∨ c = '\'' then readLineString (c :: rest)
    else
      let name := (c :: rest).takeWhile isKeyChar
      if name.isEmpty then none else some (String.ofList name, (c :: rest).dropWhile isKeyChar)
  | [] => none

/-- The parts of a key with points between them, at most `n` of them. -/
def readParts : Nat → Reader KeyPath
  | 0, _ => none
  | n + 1, s => do
    let (part, s) ← readPart (skipBlanks s)
    match skipBlanks s with
    | '.' :: rest =>
      let (key, rest) ← readParts n rest
      return (⟨part :: key.parents, key.last⟩, rest)
    | rest => return (⟨[], part⟩, rest)

/-- A dotted key and the blanks around it. -/
def readKey : Reader KeyPath := readParts nestingRoom

/-! ### Values -/

/-- The values of an array after its opening bracket, at most as many as `turns` has characters. -/
def readItems (item : Reader Value) : (turns : List Char) → Reader (List Value)
  | [], _ => none
  | _ :: turns, s =>
    match skipSpace s with
    | ']' :: rest => some ([], rest)
    | s => do
      let (v, s) ← item s
      match skipSpace s with
      | ',' :: rest =>
        let (vs, rest) ← readItems item turns rest
        return (v :: vs, rest)
      | ']' :: rest => return ([v], rest)
      | _ => none

/-- A key and its value, an equals sign between them. -/
def readPair (item : Reader Value) (s : List Char) : Option ((KeyPath × Value) × List Char) := do
  let (key, s) ← readKey s
  let s ← literal "=" s
  let (v, s) ← item (skipBlanks s)
  return ((key, v), s)

/-- The pairs of an inline table up to its closing brace, at most as many as `turns` has characters,
added to those read before. -/
def readPairs (item : Reader Value) : (turns : List Char) → Draft.Entries → Reader Draft.Entries
  | [], _, _ => none
  | _ :: turns, entries, s => do
    let ((key, v), s) ← readPair item s
    let entries ← Draft.define key v entries
    match skipBlanks s with
    | ',' :: rest => readPairs item turns entries rest
    | '\x7d' :: rest => return (entries, rest)
    | _ => none

/-- A value within `room` more levels of nesting. -/
def readNested : Nat → Reader Value
  | room, s =>
    match s with
    | '[' :: rest =>
      match room with
      | 0 => none
      | room + 1 => (readItems (readNested room) s rest).map fun (vs, r) => (.array vs, r)
    | '\x7b' :: rest =>
      match room with
      | 0 => none
      | room + 1 =>
        match skipBlanks rest with
        | '\x7d' :: r => some (.table [], r)
        | _ => (readPairs (readNested room) s [] rest).map fun (entries, r) =>
          (.table (Draft.finish entries), r)
    | c :: _ =>
      if c = '"' ∨ c = '\'' then (readString s).map fun (text, r) => (.string text, r)
      else readScalar s
    | [] => none

/-- A value. -/
def readValue : Reader Value := readNested nestingRoom

/-! ### Lines -/

/-- What a line says. -/
inductive Statement where
  /-- What follows goes to this table. -/
  | table (key : KeyPath)
  /-- What follows goes to one more table of this name. -/
  | element (key : KeyPath)
  /-- A key has this value. -/
  | pair (key : KeyPath) (v : Value)

/-- A header or a key with its value. -/
def readStatement (s : List Char) : Option (Statement × List Char) :=
  match s with
  | '[' :: '[' :: rest => do
    let (key, rest) ← readKey rest
    return (.element key, ← literal "]]" rest)
  | '[' :: rest => do
    let (key, rest) ← readKey rest
    return (.table key, ← literal "]" rest)
  | _ => (readPair readValue s).map fun ((key, v), rest) => (.pair key v, rest)

/-- The statements of a text of at most `n` lines, one on a line. -/
def readStatements : Nat → List Char → Option (List Statement)
  | 0, _ => none
  | n + 1, s =>
    match endOfLine? s with
    | some [] => some []
    | some rest => readStatements n rest
    | none => do
      let (statement, rest) ← readStatement (skipBlanks s)
      let rest ← endOfLine? rest
      return statement :: (← readStatements n rest)

/-! ### Documents -/

/-- Takes up the statements in turn, when the table at `path` was opened last. -/
def build (path : List String) (entries : Draft.Entries) : List Statement → Option Draft.Entries
  | [] => some entries
  | .table key :: rest => do
    build (key.parents ++ [key.last]) (← Draft.openTable key entries) rest
  | .element key :: rest => do
    build (key.parents ++ [key.last]) (← Draft.openElement key entries) rest
  | .pair key v :: rest => do
    build path (← Draft.defineIn path key v entries) rest

/-- The text without a byte order mark at its start. -/
def skipMark : List Char → List Char
  | c :: rest => if c.toNat = 0xfeff then rest else c :: rest
  | [] => []

/-- The table that a document defines, unless it is no TOML. -/
def parse (s : String) : Option Table := do
  let text := skipMark s.toList
  let statements ← readStatements (text.length + 1) text
  untagEntries? (Draft.finish (← build [] [] statements))

end Toml

end BlockStore
