/-!
# Percentages

A share is shown in percent with one digit after the point. It is first rounded to a double, which
settles the shares that lie in the middle between two digits: a double that is exactly in the middle
goes to the even digit, and the others go where the double lies.

## Main definitions

* `roundDiv`: a quotient rounded to the nearest whole number, the even one of two.
* `nearestDouble`: the double nearest to a quotient.
* `percent`: a share in percent.
-/

namespace BlockStore

/-- `n / d` rounded to the nearest whole number, to the even one of two. -/
def roundDiv (n d : Nat) : Nat :=
  let q := n / d
  let r := n % d
  if d < 2 * r ∨ (2 * r = d ∧ q % 2 = 1) then q + 1 else q

/-- The binary places, at least `places` of them, that bring `n / d` to 53 bits. At most `fuel` are
added. -/
def binaryPlaces (n d : Nat) : (fuel places : Nat) → Nat
  | 0, places => places
  | fuel + 1, places =>
    if d <<< 52 ≤ n <<< places then places else binaryPlaces n d fuel (places + 1)

/-- The double nearest to `n / d`, a number below `2 ^ 53`, as a numerator and the binary places
below it. -/
def nearestDouble (n d : Nat) : Nat × Nat :=
  if n = 0 then (0, 0)
  else
    let places := binaryPlaces n d (53 + d.log2) 0
    (roundDiv (n <<< places) d, places)

/-- `part` of `whole` in percent. Of nothing every share is zero. -/
def percent (part whole : Nat) : String :=
  let (numerator, places) := if whole = 0 then (0, 0) else nearestDouble (part * 100) whole
  let tenths := roundDiv (10 * numerator) (1 <<< places)
  s!"{tenths / 10}.{tenths % 10}%"

end BlockStore
