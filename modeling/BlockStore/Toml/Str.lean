import BlockStore.Text.Hex

/-!
# TOML strings

A string is written in one of four forms: between double quotes, where a backslash escapes, or
between single quotes, where nothing does; and either on one line, or between threefold quotes on
several lines. A line break right after opening threefold quotes is no part of the text, and up to
two quotes may stand inside or before the closing ones.

## Main definitions

* `Toml.StringForm`: the four forms, by whether they escape and whether they span lines.
* `Toml.readBody`: the text up to the closing quotes.
* `Toml.readString`: a string in any form; `Toml.readLineString` in a one-line form.
* `Toml.chooseForm`, `Toml.writeString`: the form in which a text is easiest to read, and the text
  written in it.
-/

namespace BlockStore

namespace Toml

/-- A way to write a string. -/
structure StringForm where
  /-- A backslash escapes, and the quotes are double. -/
  escapes : Bool
  /-- The quotes are threefold, and the text may span lines. -/
  lines : Bool
deriving DecidableEq

namespace StringForm

/-- The quote character. -/
def quote (f : StringForm) : Char := if f.escapes then '"' else '\''

/-- The quotes before and after the text. -/
def quotes (f : StringForm) : List Char := List.replicate (if f.lines then 3 else 1) f.quote

end StringForm

/-- A character that may stand for itself: no control but the tab. -/
def isPlain (c : Char) : Bool := c == '\t' || (0x20 ≤ c.toNat && c.toNat != 0x7f)

/-- The character with this code point, if there is one. -/
def scalar? (n : Nat) : Option Char :=
  if n < 0xd800 ∨ (0xdfff < n ∧ n < 0x110000) then some (Char.ofNat n) else none

/-- The number written by the first `n` characters, all hex digits. -/
def hexNumber? (n : Nat) (s : List Char) : Option Nat := do
  let digits ← (s.take n).mapM hexValue?
  if digits.length = n then some (digits.foldl (fun acc d => 16 * acc + d) 0) else none

/-- The character that an escape stands for, and the number of characters after the backslash. -/
def escape? : List Char → Option (Char × Nat)
  | [] => none
  | c :: rest =>
    if c = 'b' then some ('\x08', 1)
    else if c = 't' then some ('\t', 1)
    else if c = 'n' then some ('\n', 1)
    else if c = 'f' then some ('\x0c', 1)
    else if c = 'r' then some ('\r', 1)
    else if c = '"' then some ('"', 1)
    else if c = '\\' then some ('\\', 1)
    else if c = 'u' then (hexNumber? 4 rest >>= scalar?).map (·, 5)
    else if c = 'U' then (hexNumber? 8 rest >>= scalar?).map (·, 9)
    else none

/-- The rest after a line break, which is a line feed with or without a carriage return. -/
def lineBreak? : List Char → Option (List Char)
  | '\n' :: rest => some rest
  | '\r' :: '\n' :: rest => some rest
  | _ => none

/-- The rest after blanks. -/
def skipBlanks (s : List Char) : List Char := s.dropWhile fun c => c == ' ' || c == '\t'

/-- The rest after blanks and line breaks. -/
def skipBlankLines : List Char → List Char
  | '\r' :: '\n' :: rest => skipBlankLines rest
  | c :: rest => if c = ' ' ∨ c = '\t' ∨ c = '\n' then skipBlankLines rest else c :: rest
  | [] => []

/-- The rest after the blanks and line breaks that a backslash at the end of a line swallows. -/
def swallowedBreak? (s : List Char) : Option (List Char) :=
  (lineBreak? (skipBlanks s)).map skipBlankLines

theorem length_lineBreak? {s r : List Char} (h : lineBreak? s = some r) : r.length < s.length := by
  unfold lineBreak? at h
  split at h <;> cases h <;> simp only [List.length_cons] <;> omega

theorem length_skipBlanks_le (s : List Char) : (skipBlanks s).length ≤ s.length :=
  (List.dropWhile_sublist _).length_le

theorem length_skipBlankLines_le (s : List Char) : (skipBlankLines s).length ≤ s.length := by
  fun_induction skipBlankLines s <;> simp_all <;> omega

theorem length_swallowedBreak? {s r : List Char} (h : swallowedBreak? s = some r) :
    r.length < s.length := by
  obtain ⟨t, ht, rfl⟩ := Option.map_eq_some_iff.1 h
  have h₁ := length_lineBreak? ht
  have h₂ := length_skipBlanks_le s
  have h₃ := length_skipBlankLines_le t
  omega

/-- The text up to the closing quotes, and what follows them. -/
def readBody (f : StringForm) (s : List Char) : Option (List Char × List Char) :=
  match hs : s with
  | [] => none
  | c :: rest =>
    if c = f.quote then
      if f.lines then
        let run := 1 + (rest.takeWhile (· = f.quote)).length
        if run < 3 then
          (readBody f rest).map fun (text, r) => (c :: text, r)
        else if run < 6 then some (List.replicate (run - 3) c, s.drop run)
        else none
      else some ([], rest)
    else if c = '\\' ∧ f.escapes then
      match hb : if f.lines then swallowedBreak? rest else none with
      | some r =>
        have : r.length < rest.length := by
          split at hb
          · exact length_swallowedBreak? hb
          · simp at hb
        readBody f r
      | none =>
        match escape? rest with
        | some (x, n) => (readBody f (rest.drop n)).map fun (text, r) => (x :: text, r)
        | none => none
    else if isPlain c then (readBody f rest).map fun (text, r) => (c :: text, r)
    else if f.lines then
      match hb : lineBreak? s with
      | some r =>
        have : r.length < s.length := length_lineBreak? hb
        (readBody f r).map fun (text, r) => ('\n' :: text, r)
      | none => none
    else none
termination_by s.length
decreasing_by all_goals subst hs; simp_all; try omega

/-- The rest after the opening quotes of a form. -/
def openQuotes? (f : StringForm) (s : List Char) : Option (List Char) :=
  if f.quotes.isPrefixOf s then
    let rest := s.drop f.quotes.length
    some (if f.lines then (lineBreak? rest).getD rest else rest)
  else none

/-- A string in a given form. -/
def readForm (f : StringForm) (s : List Char) : Option (String × List Char) := do
  let rest ← openQuotes? f s
  let (text, rest) ← readBody f rest
  return (String.ofList text, rest)

/-- A string in one of the one-line forms. -/
def readLineString (s : List Char) : Option (String × List Char) :=
  readForm ⟨true, false⟩ s <|> readForm ⟨false, false⟩ s

/-- A string in any form. Threefold quotes open a text of several lines, never an empty one. -/
def readString (s : List Char) : Option (String × List Char) :=
  if (openQuotes? ⟨true, true⟩ s).isSome then readForm ⟨true, true⟩ s
  else if (openQuotes? ⟨false, true⟩ s).isSome then readForm ⟨false, true⟩ s
  else readLineString s

/-- The length of the longest run of a character, when `current` of it were met just before. -/
def longestRun (c : Char) (current : Nat) : List Char → Nat
  | [] => current
  | x :: rest =>
    if x = c then longestRun c (current + 1) rest else max current (longestRun c 0 rest)

/-- A control that has to be escaped: every one but the tab and the line feed. -/
def isBareControl (c : Char) : Bool := !isPlain c && c != '\n'

/-- The form a text is written in: the simplest one that needs no escapes but for tabs, one-line
forms and double quotes first, and otherwise double quotes with escapes. -/
def chooseForm (s : List Char) : StringForm :=
  let controls := s.any isBareControl
  let backslash := s.contains '\\'
  let lines := s.contains '\n'
  let double := longestRun '"' 0 s
  let single := longestRun '\'' 0 s
  if !controls ∧ !backslash ∧ double = 0 ∧ !lines then ⟨true, false⟩
  else if !controls ∧ single = 0 ∧ !lines then ⟨false, false⟩
  else if !controls ∧ !backslash ∧ double ≤ 2 then ⟨true, true⟩
  else if !controls ∧ single ≤ 2 then ⟨false, true⟩
  else ⟨true, lines⟩

/-- A character of a text between double quotes, other than a quote. -/
def writeChar (lines : Bool) (c : Char) : List Char :=
  if c = '\x08' then ['\\', 'b']
  else if c = '\t' then ['\\', 't']
  else if c = '\n' then if lines then ['\n'] else ['\\', 'n']
  else if c = '\x0c' then ['\\', 'f']
  else if c = '\r' then ['\\', 'r']
  else if c = '\\' then ['\\', '\\']
  else if isPlain c then [c]
  else '\\' :: 'u' :: '0' :: '0' ::
    [(hexDigit (c.toNat / 16)).toUpper, (hexDigit (c.toNat % 16)).toUpper]

/-- A text between double quotes, when `run` quotes stand just before it. On one line every quote is
escaped, on several lines each third one. -/
def writeEscaped (lines : Bool) (run : Nat) : List Char → List Char
  | [] => []
  | c :: rest =>
    if c = '"' then
      if lines ∧ run < 2 then c :: writeEscaped lines (run + 1) rest
      else '\\' :: c :: writeEscaped lines 0 rest
    else writeChar lines c ++ writeEscaped lines 0 rest

/-- A text with the quotes of its form. A text that has line breaks starts on a line of its own. -/
def writeString (s : String) : List Char :=
  let text := s.toList
  let f := chooseForm text
  let body := if f.escapes then writeEscaped f.lines 0 text else text
  let start := if f.lines ∧ text.contains '\n' then ['\n'] else []
  f.quotes ++ start ++ body ++ f.quotes

end Toml

end BlockStore
