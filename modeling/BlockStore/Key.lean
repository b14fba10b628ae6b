import BlockStore.Bytes
import BlockStore.Text.Hex

/-!
# Keys

A key is 160 bits and is written as 40 hex digits. Names from outside reach a table only
through `Key.decode?`.

## Main definitions

* `Key`: exactly `keySize` bytes; `Key.zero` fills the entries that hold no key.
* `Key.encode`, `Key.decode?`: the written form, in lower case, and its reader, in either case.
* `instOrdKey`: keys are ordered byte by byte.
-/

namespace BlockStore

/-- Size of a key in bytes. -/
def keySize : Nat := 20

/-- A 160-bit key. -/
structure Key where
  /-- The bytes, most significant first. -/
  bytes : ByteArray
  size_eq : bytes.size = keySize

namespace Key

@[ext] theorem ext {a b : Key} (h : a.bytes = b.bytes) : a = b := by
  cases a; cases b; simp_all

instance : DecidableEq Key := fun a b =>
  @decidable_of_iff _ (a.bytes = b.bytes) ⟨ext, congrArg bytes⟩ (ByteArray.instDecidableEq _ _)

/-- The key whose bytes are all zero. -/
def zero : Key := ⟨zeros keySize, size_zeros _⟩

instance : Inhabited Key := ⟨zero⟩

/-- Every byte is zero. -/
def isZero (k : Key) : Bool := k == zero

/-- The key in the `keySize` bytes of `b` from position `i` on. -/
def ofBytes (b : ByteArray) (i : Nat) : Key :=
  ⟨fit (b.extract i (i + keySize)) keySize, size_fit _ _⟩

/-- The bytes as a list. -/
def toList (k : Key) : List UInt8 := k.bytes.data.toList

theorem length_toList (k : Key) : k.toList.length = keySize := k.size_eq

instance : Ord Key := ⟨fun a b => compare a.toList b.toList⟩

/-- The key written as 40 lower-case hex digits. -/
def encode (k : Key) : String := String.ofList (hexOfBytes k.toList)

instance : ToString Key := ⟨encode⟩

/-- The key that digits of either case stand for. -/
def ofDigits? (digits : List Char) : Option Key := do
  let bs ← bytesOfHex? digits
  if h : bs.length = keySize then some ⟨bytesOf bs, h⟩ else none

/-- The key written by exactly 40 hex digits of either case. The length that is checked first is the one of the
UTF-8 form. -/
def decode? (s : String) : Option Key :=
  if s.utf8ByteSize = 2 * keySize then ofDigits? s.toList else none

end Key

end BlockStore
