/-!
# Timestamps

A modification time is a 64-bit count of nanoseconds since the epoch. Times too late for it are
stored as the last one.

## Main definitions

* `Timestamp`: the count.
* `Timestamp.ofParts`, `Timestamp.toParts`: from whole seconds and nanoseconds, and back.
* `Timestamp.ofDuration`: from a duration, whose nanoseconds carry into its seconds.
-/

namespace BlockStore

/-- Nanoseconds in a second. -/
def nanosPerSecond : Nat := 1000000000

/-- Nanoseconds since the epoch. -/
structure Timestamp where
  /-- The count. -/
  nanos : UInt64
deriving DecidableEq, Inhabited

namespace Timestamp

/-- The word nearest to `n`: `n` itself, or the greatest word. -/
def saturate (n : Nat) : UInt64 := UInt64.ofNat (min n ((1 <<< 64) - 1))

/-- `seconds` and `nanos` after the epoch. Both the product and the sum stop at the last
timestamp. -/
def ofParts (seconds nanos : Nat) : Timestamp :=
  ⟨saturate ((saturate (seconds * nanosPerSecond)).toNat + nanos)⟩

/-- Whole seconds, and the nanoseconds that remain. -/
def toParts (t : Timestamp) : Nat × Nat :=
  (t.nanos.toNat / nanosPerSecond, t.nanos.toNat % nanosPerSecond)

/-- The time a duration after the epoch. A duration first carries whole seconds out of its
nanoseconds, which changes nothing here. -/
def ofDuration (seconds nanos : Nat) : Timestamp :=
  ofParts (seconds + nanos / nanosPerSecond) (nanos % nanosPerSecond)

end Timestamp

end BlockStore
