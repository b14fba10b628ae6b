/-!
# Base 16

Bytes written as two digits each, high digit first, and numbers written in base 16.

## Main definitions

* `hexDigit`, `hexValue?`: a digit from its value, in lower case, and the value of a digit in
  either case.
* `hexOfBytes`, `bytesOfHex?`: the digits of a run of bytes, and the bytes written by digits.
* `hexOfNat`: a number in base 16 with at least a given count of digits.

## Main results

* `bytesOfHex?_hexOfBytes`: reading what was written gives the bytes back.
-/

namespace BlockStore

/-- The lower-case digit of a value below 16. -/
def hexDigit (n : Nat) : Char :=
  if n < 10 then Char.ofNat (48 + n) else Char.ofNat (87 + n)

/-- The value of a digit, upper or lower case. -/
def hexValue? (c : Char) : Option Nat :=
  if '0' ≤ c ∧ c ≤ '9' then some (c.toNat - 48)
  else if 'a' ≤ c ∧ c ≤ 'f' then some (c.toNat - 87)
  else if 'A' ≤ c ∧ c ≤ 'F' then some (c.toNat - 55)
  else none

theorem hexValue?_hexDigit {n : Nat} (h : n < 16) : hexValue? (hexDigit n) = some n := by
  have : ∀ m : Fin 16, hexValue? (hexDigit m) = some m.val := by decide
  exact this ⟨n, h⟩

/-- Two digits for each byte, high digit first. -/
def hexOfBytes : List UInt8 → List Char
  | [] => []
  | b :: bs => hexDigit (b.toNat / 16) :: hexDigit (b.toNat % 16) :: hexOfBytes bs

/-- The bytes written by pairs of digits; an odd digit or another character is refused. -/
def bytesOfHex? : List Char → Option (List UInt8)
  | [] => some []
  | [_] => none
  | high :: low :: rest => do
    let h ← hexValue? high
    let l ← hexValue? low
    let bs ← bytesOfHex? rest
    return UInt8.ofNat (16 * h + l) :: bs

theorem bytesOfHex?_hexOfBytes (bs : List UInt8) : bytesOfHex? (hexOfBytes bs) = some bs := by
  induction bs with
  | nil => rfl
  | cons b bs ih =>
    have hb := b.toNat_lt
    simp only [hexOfBytes, bytesOfHex?, ih, hexValue?_hexDigit (show b.toNat / 16 < 16 by omega),
      hexValue?_hexDigit (show b.toNat % 16 < 16 by omega), Option.bind_eq_bind, Option.bind_some,
      show 16 * (b.toNat / 16) + b.toNat % 16 = b.toNat by omega, UInt8.ofNat_toNat]
    rfl

/-- `x` in base 16, lower case, with leading zeros up to `width` digits. -/
def hexOfNat (width x : Nat) : String :=
  let digits := Nat.toDigits 16 x
  String.ofList (List.replicate (width - digits.length) '0' ++ digits)

end BlockStore
