import BlockStore.Toml.Str
import BlockStore.Toml.Value

/-!
# TOML numbers, times and truth values

These values start with a digit, a sign or a letter and end where no further character fits, so each
reader takes the longest piece of text that it can and gives back what follows. A reader that fails
leaves the text to the next one, which is safe because no value can be followed by another.

## Main definitions

* `Toml.digitRun`: digits with single underscores between them.
* `Toml.readInteger`: a 64-bit integer in base 10, 16, 8 or 2.
* `Toml.readFloat`: a decimal fraction, an infinity or a value that is no number.
* `Toml.readDatetime`: a day, a time of day, or both.
* `Toml.Datetime.ofText?`: the point in time that a text gives.
* `Toml.readScalar`: any of these, or a truth value.
-/

namespace BlockStore

namespace Toml

/-- A reader gives a value and the text after it, or fails. -/
abbrev Reader (α : Type) := List Char → Option (α × List Char)

/-- The rest after a given text. -/
def literal (word : String) (s : List Char) : Option (List Char) :=
  if word.toList.isPrefixOf s then some (s.drop word.length) else none

/-! ### Digits -/

/-- The digits that go on a number, single underscores between them left out. -/
def digitTail (isDigit : Char → Bool) : List Char → List Char × List Char
  | '_' :: c :: rest =>
    if isDigit c then
      let (digits, r) := digitTail isDigit rest
      (c :: digits, r)
    else ([], '_' :: c :: rest)
  | c :: rest =>
    if isDigit c then
      let (digits, r) := digitTail isDigit rest
      (c :: digits, r)
    else ([], c :: rest)
  | [] => ([], [])

/-- One or more digits with single underscores between them. -/
def digitRun (isDigit : Char → Bool) : Reader (List Char)
  | c :: rest =>
    if isDigit c then
      let (digits, r) := digitTail isDigit rest
      some (c :: digits, r)
    else none
  | [] => none

/-- The number `n` with a digit written after it. -/
def pushDigit (base n : Nat) (c : Char) : Nat := base * n + (hexValue? c).getD 0

theorem foldl_pushDigit (base n : Nat) (digits : List Char) :
    digits.foldl (pushDigit base) n =
      n * Nat.pow base digits.length + digits.foldl (pushDigit base) 0 := by
  induction digits generalizing n with
  | nil => simp
  | cons c rest ih =>
    have hpow : Nat.pow base (rest.length + 1) = base * Nat.pow base rest.length :=
      Nat.pow_succ'
    rw [List.foldl_cons, ih, List.foldl_cons, ih (pushDigit base 0 c), List.length_cons, hpow]
    simp only [pushDigit, Nat.mul_zero, Nat.zero_add, Nat.add_mul]
    rw [Nat.mul_comm base n, Nat.mul_assoc, Nat.add_assoc]

/-- The number that digits write in a base, put together from the numbers of the two halves of the
digits, those in turn from halves, and so on for as many levels as `depth` says. -/
def numberByHalves (base : Nat) : (depth : Nat) → (digits : List Char) → Nat
  | 0, digits => digits.foldl (pushDigit base) 0
  | depth + 1, digits =>
    if digits.length ≤ 64 then digits.foldl (pushDigit base) 0
    else
      let half := digits.length / 2
      let high := numberByHalves base depth (digits.take half)
      let low := numberByHalves base depth (digits.drop half)
      high * Nat.pow base (digits.length - half) + low

theorem numberByHalves_eq_foldl (base depth : Nat) (digits : List Char) :
    numberByHalves base depth digits = digits.foldl (pushDigit base) 0 := by
  induction depth generalizing digits with
  | zero => rfl
  | succ depth ih =>
    unfold numberByHalves
    split
    · rfl
    · simp only [ih]
      conv => rhs; rw [← List.take_append_drop (digits.length / 2) digits, List.foldl_append,
        foldl_pushDigit]
      rw [List.length_drop]

/-- The number that digits write in a base. -/
def numberOf (base : Nat) (digits : List Char) : Nat :=
  numberByHalves base digits.length digits

theorem numberOf_eq_foldl (base : Nat) (digits : List Char) :
    numberOf base digits = digits.foldl (pushDigit base) 0 := numberByHalves_eq_foldl _ _ _

/-- A sign, if there is one: whether it is a minus. -/
def readSign : List Char → Bool × List Char
  | '+' :: rest => (false, rest)
  | '-' :: rest => (true, rest)
  | s => (false, s)

/-- A decimal whole number: a sign, then a zero or digits that do not start with one. -/
def readDecimal (s : List Char) : Option ((Bool × List Char) × List Char) :=
  let (negative, rest) := readSign s
  match rest with
  | '0' :: r => some ((negative, ['0']), r)
  | _ => (digitRun Char.isDigit rest).map fun (digits, r) => ((negative, digits), r)

/-! ### Integers -/

/-- The integer if it takes 64 bits. -/
def inRange (n : Int) : Option Int :=
  if -0x8000000000000000 ≤ n ∧ n < 0x8000000000000000 then some n else none

/-- Whether `c` is a digit in a base up to 16. -/
def isDigitIn (base : Nat) (c : Char) : Bool := (hexValue? c).any (· < base)

/-- The digits of a number in a base after the mark of the base. -/
def readBased (base : Nat) (s : List Char) : Option (Int × List Char) := do
  let (digits, rest) ← digitRun (isDigitIn base) s
  let n ← inRange (numberOf base digits)
  return (n, rest)

/-- A 64-bit integer. -/
def readInteger : Reader Int
  | '0' :: 'x' :: rest => readBased 16 rest
  | '0' :: 'o' :: rest => readBased 8 rest
  | '0' :: 'b' :: rest => readBased 2 rest
  | s => do
    let ((negative, digits), rest) ← readDecimal s
    let magnitude : Int := numberOf 10 digits
    let n ← inRange (if negative then -magnitude else magnitude)
    return (n, rest)

/-! ### Fractions -/

/-- The digits after a decimal point. -/
def readFraction : Reader (List Char)
  | '.' :: rest => digitRun Char.isDigit rest
  | _ => none

/-- The magnitude of an exponent. It takes up no more digits once it has reached 2¹⁶, which is far
beyond what a double can hold. -/
def exponentOf (digits : List Char) : Nat :=
  digits.foldl (fun e c => if e < 0x10000 then pushDigit 10 e c else e) 0

/-- A power of ten. -/
def readExponent : Reader Int
  | c :: rest =>
    if c = 'e' ∨ c = 'E' then do
      let (negative, r) := readSign rest
      let (digits, r) ← digitRun Char.isDigit r
      let magnitude : Int := exponentOf digits
      return (if negative then -magnitude else magnitude, r)
    else none
  | [] => none

/-- Whether `n · 10 ^ e`, where `n` has `digits` digits, is too large for a double: at least half a
step above the largest one. Numbers far from the limit are told by their digits alone. -/
def exceedsDouble (n digits : Nat) (e : Int) : Bool :=
  let limit := (1 <<< 1024) - (1 <<< 970)
  if n = 0 then false
  else if 700 < e then true
  else if digits + e < 300 then false
  else if 0 ≤ e then decide (limit ≤ n * Nat.pow 10 e.toNat)
  else decide (limit * Nat.pow 10 (-e).toNat ≤ n)

/-- A decimal fraction: a whole number, then a fraction, an exponent or both. A number above the
range is refused, one below it is not. -/
def readFraction? (s : List Char) : Option (Decimal × List Char) := do
  let ((negative, whole), rest) ← readDecimal s
  let fraction := readFraction rest
  let (places, rest) := fraction.getD ([], rest)
  let exponent := readExponent rest
  let (e, rest) := exponent.getD (0, rest)
  if fraction.isNone && exponent.isNone then none
  let digits := whole ++ places
  let n := numberOf 10 digits
  if !negative && exceedsDouble n digits.length (e - places.length) then none
  return (.finite negative n (e - places.length), rest)

/-- An infinity, or a value that is no number. -/
def readSpecial (s : List Char) : Option (Decimal × List Char) :=
  let (negative, rest) := readSign s
  ((literal "inf" rest).map fun r => (.infinity negative, r))
    <|> ((literal "nan" rest).map fun r => (.notANumber, r))

/-- A floating point number. -/
def readFloat (s : List Char) : Option (Decimal × List Char) := readFraction? s <|> readSpecial s

/-! ### Times -/

/-- A number of exactly `n` digits that lies between `low` and `high`. -/
def readField (n low high : Nat) (s : List Char) : Option (Nat × List Char) :=
  let digits := s.take n
  let value := numberOf 10 digits
  if digits.length = n ∧ digits.all Char.isDigit ∧ low ≤ value ∧ value ≤ high then
    some (value, s.drop n)
  else none

/-- The number of days of a month. -/
def daysIn (year month : Nat) : Nat :=
  if month = 2 then
    if 4 ∣ year ∧ (¬ 100 ∣ year ∨ 400 ∣ year) then 29 else 28
  else if month = 4 ∨ month = 6 ∨ month = 9 ∨ month = 11 then 30
  else 31

/-- A day that is in the calendar. -/
def readDate (s : List Char) : Option (Date × List Char) := do
  let (year, s) ← readField 4 0 9999 s
  let s ← literal "-" s
  let (month, s) ← readField 2 1 12 s
  let s ← literal "-" s
  let (day, s) ← readField 2 1 (daysIn year month) s
  return (⟨year, month, day⟩, s)

/-- Nanoseconds from the digits after the point, those past the ninth being dropped. -/
def readNanos : List Char → Nat × List Char
  | '.' :: rest =>
    let digits := rest.takeWhile Char.isDigit
    if digits.isEmpty then (0, '.' :: rest)
    else
      let kept := digits.take 9
      (numberOf 10 kept * Nat.pow 10 (9 - kept.length), rest.drop digits.length)
  | s => (0, s)

/-- A time of day. -/
def readTime (s : List Char) : Option (Time × List Char) := do
  let (hour, s) ← readField 2 0 23 s
  let s ← literal ":" s
  let (minute, s) ← readField 2 0 59 s
  let s ← literal ":" s
  let (second, s) ← readField 2 0 60 s
  let (nanos, s) := readNanos s
  return (⟨hour, minute, second, nanos⟩, s)

/-- How far a time is from universal time. -/
def readOffset : Reader TimeOffset
  | c :: rest =>
    if c = 'Z' ∨ c = 'z' then some (.utc, rest)
    else if c = '+' ∨ c = '-' then do
      let (hours, s) ← readField 2 0 23 rest
      let s ← literal ":" s
      let (minutes, s) ← readField 2 0 59 s
      let total : Int := 60 * hours + minutes
      return (.minutes (if c = '-' then -total else total), s)
    else none
  | [] => none

/-- The time of day and the offset that may follow a day, after a `T` or a blank. -/
def readTimeOfDate : Reader (Time × Option TimeOffset)
  | c :: rest =>
    if c = 'T' ∨ c = 't' ∨ c = ' ' then do
      let (time, s) ← readTime rest
      match readOffset s with
      | some (offset, s) => return ((time, some offset), s)
      | none => return ((time, none), s)
    else none
  | [] => none

/-- A day with or without a time, or a time of day alone. -/
def readDatetime (s : List Char) : Option (Datetime × List Char) :=
  match readDate s with
  | some (date, s) =>
    match readTimeOfDate s with
    | some ((time, offset), s) => some (⟨some date, some time, offset⟩, s)
    | none => some (⟨some date, none, none⟩, s)
  | none => (readTime s).map fun (time, s) => (⟨none, some time, none⟩, s)

/-- The point in time that a text gives, if it gives nothing else. -/
def Datetime.ofText? (text : String) : Option Datetime :=
  match readDatetime text.toList with
  | some (d, []) => some d
  | _ => none

/-! ### Any of them -/

/-- A number, a point in time or a truth value. -/
def readScalar (s : List Char) : Option (Value × List Char) :=
  ((literal "true" s).map fun r => (.boolean true, r))
    <|> ((literal "false" s).map fun r => (.boolean false, r))
    <|> ((readDatetime s).map fun (d, r) => (.datetime d, r))
    <|> ((readFloat s).map fun (f, r) => (.float f, r))
    <|> ((readInteger s).map fun (n, r) => (.integer n, r))

end Toml

end BlockStore
