import BlockStore.Text.Escaped
import BlockStore.Text.Hex

/-!
# Quoted text

Text from outside appears in error messages between double quotes, so that blanks, quotes and
characters that cannot be seen stay recognisable.

## Main definitions

* `quotedChar`: how one character is written.
* `quoted`: a text between double quotes.
-/

namespace BlockStore

/-- The code point of `c` in braces, in base 16. -/
def escapedCodePoint (c : Char) : String := "\\u\x7b" ++ hexOfNat 1 c.toNat ++ "\x7d"

/-- One character of a quoted text: the quote and the backslash after a backslash, a few controls
by a letter, and what cannot be shown by its code point. -/
def quotedChar (c : Char) : String :=
  if c = '"' then "\\\""
  else if c = '\\' then "\\\\"
  else if c = '\n' then "\\n"
  else if c = '\r' then "\\r"
  else if c = '\t' then "\\t"
  else if c.toNat = 0 then "\\0"
  else if c.toNat < 0x20 || c.toNat == 0x7f || isEscapedWide c.toNat then escapedCodePoint c
  else String.singleton c

/-- `s` between double quotes. -/
def quoted (s : String) : String :=
  "\"" ++ String.join (s.toList.map quotedChar) ++ "\""

end BlockStore
