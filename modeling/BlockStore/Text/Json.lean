import BlockStore.Text.Hex

/-!
# JSON output

Reports are written as JSON for other programs, each value on a line of its own and two blanks
deeper than what holds it.

## Main definitions

* `Json`: the values that reports hold.
* `Json.pretty`: a value with its line breaks.
-/

namespace BlockStore

/-- A value of a report. -/
inductive Json where
  /-- Nothing. -/
  | null
  /-- A truth value. -/
  | bool (b : Bool)
  /-- A number. -/
  | number (n : Nat)
  /-- A text. -/
  | string (s : String)
  /-- Values in order. -/
  | array (items : List Json)
  /-- Values by name, in order. -/
  | object (fields : List (String × Json))

namespace Json

/-- A character between double quotes. -/
def quotedChar (c : Char) : String :=
  if c = '"' then "\\\""
  else if c = '\\' then "\\\\"
  else if c = '\x08' then "\\b"
  else if c = '\t' then "\\t"
  else if c = '\n' then "\\n"
  else if c = '\x0c' then "\\f"
  else if c = '\r' then "\\r"
  else if c.toNat < 0x20 then "\\u" ++ hexOfNat 4 c.toNat
  else String.singleton c

/-- A text between double quotes. -/
def quote (s : String) : String := "\"" ++ String.join (s.toList.map quotedChar) ++ "\""

/-- The start of a line at a depth. -/
def newLine (depth : Nat) : String := "\n" ++ String.ofList (List.replicate (2 * depth) ' ')

/-- The parts of an array or an object between its brackets, each on a line of its own. -/
def block (opening closing : String) (depth : Nat) (items : List String) : String :=
  if items.isEmpty then opening ++ closing
  else
    opening ++ newLine (depth + 1) ++ (("," ++ newLine (depth + 1)).intercalate items) ++
      newLine depth ++ closing

mutual

/-- A value that starts on a line at a depth. -/
def render (depth : Nat) : Json → String
  | .null => "null"
  | .bool b => if b then "true" else "false"
  | .number n => toString n
  | .string s => quote s
  | .array items => block "[" "]" depth (renderItems (depth + 1) items)
  | .object fields => block "\x7b" "\x7d" depth (renderFields (depth + 1) fields)

/-- The values of an array. -/
def renderItems (depth : Nat) : List Json → List String
  | [] => []
  | v :: rest => render depth v :: renderItems depth rest

/-- The names and values of an object. -/
def renderFields (depth : Nat) : List (String × Json) → List String
  | [] => []
  | (name, v) :: rest => (quote name ++ ": " ++ render depth v) :: renderFields depth rest

end

/-- A value with its line breaks. -/
def pretty (v : Json) : String := render 0 v

end Json

end BlockStore
