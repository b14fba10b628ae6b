/-!
# TOML values

A TOML document is a table of values by key. Tables are kept as lists of pairs with distinct keys,
in the order of the document. Once a document is read, only what `Table.get?` finds counts.

## Main definitions

* `Toml.Value`, `Toml.Table`: values and tables.
* `Toml.Decimal`: a floating point number as it is written.
* `Toml.Value.same`: compares values; equality of values is decidable.
* `Toml.Datetime`: a date, a time of day, or both; `Datetime.render` writes it.
* `Toml.Table.get?`, `Toml.Table.insert`: a value by its key, and a table with one key set.
* `Toml.Table.merge`: lays one table over another, tables inside tables key by key.
-/

namespace BlockStore

namespace Toml

/-- A calendar day. -/
structure Date where
  /-- Year, four digits. -/
  year : Nat
  /-- Month from 1. -/
  month : Nat
  /-- Day of the month from 1. -/
  day : Nat
deriving DecidableEq

/-- A time of day. -/
structure Time where
  /-- Hour below 24. -/
  hour : Nat
  /-- Minute below 60. -/
  minute : Nat
  /-- Second, up to 60 for a leap second. -/
  second : Nat
  /-- Nanoseconds, further digits being dropped. -/
  nanos : Nat
deriving DecidableEq

/-- How far a local time is from universal time. -/
inductive TimeOffset where
  /-- Not at all. -/
  | utc
  /-- Ahead of it by a number of minutes, or behind it if the number is negative. -/
  | minutes (n : Int)
deriving DecidableEq

/-- A point in time, as far as it is given. -/
structure Datetime where
  /-- The day. -/
  date : Option Date
  /-- The time of day. -/
  time : Option Time
  /-- The offset. -/
  offset : Option TimeOffset
deriving DecidableEq

/-- `n` in decimal, with leading zeros up to `width` digits. -/
def padded (width n : Nat) : String :=
  let digits := Nat.toDigits 10 n
  String.ofList (List.replicate (width - digits.length) '0' ++ digits)

/-- The digits of a fraction without the zeros at its end. -/
def trimZeros (digits : List Char) : List Char :=
  (digits.reverse.dropWhile (· = '0')).reverse

/-- The day in digits. -/
def Date.render (d : Date) : String :=
  s!"{padded 4 d.year}-{padded 2 d.month}-{padded 2 d.day}"

/-- The time of day in digits, with as many of the fraction as are needed. -/
def Time.render (t : Time) : String :=
  let fraction :=
    if t.nanos = 0 then ""
    else "." ++ String.ofList (trimZeros (padded 9 t.nanos).toList)
  s!"{padded 2 t.hour}:{padded 2 t.minute}:{padded 2 t.second}" ++ fraction

/-- The offset, `Z` for none. -/
def TimeOffset.render : TimeOffset → String
  | .utc => "Z"
  | .minutes n =>
    let sign := if n < 0 then "-" else "+"
    sign ++ padded 2 (n.natAbs / 60) ++ ":" ++ padded 2 (n.natAbs % 60)

/-- The parts that are given, a `T` between day and time. -/
def Datetime.render (d : Datetime) : String :=
  let date := (d.date.map Date.render).getD ""
  let time := (d.time.map Time.render).getD ""
  let offset := (d.offset.map TimeOffset.render).getD ""
  let mark := if d.date.isSome ∧ d.time.isSome then "T" else ""
  date ++ mark ++ time ++ offset

/-- A floating point number as it is written. -/
inductive Decimal where
  /-- The number `n · 10 ^ e` with a sign. -/
  | finite (negative : Bool) (n : Nat) (e : Int)
  /-- An infinity. -/
  | infinity (negative : Bool)
  /-- A value that is no number. -/
  | notANumber
deriving DecidableEq

/-- A TOML value. -/
inductive Value where
  /-- Text. -/
  | string (text : String)
  /-- A 64-bit signed integer. -/
  | integer (n : Int)
  /-- A floating point number. -/
  | float (x : Decimal)
  /-- A truth value. -/
  | boolean (b : Bool)
  /-- A point in time. -/
  | datetime (d : Datetime)
  /-- Values in order. -/
  | array (items : List Value)
  /-- Values by key. -/
  | table (entries : List (String × Value))

namespace Value

mutual

/-- Whether two values are the same. -/
def same : Value → Value → Bool
  | .string a, .string b => a == b
  | .integer a, .integer b => a == b
  | .float a, .float b => a == b
  | .boolean a, .boolean b => a == b
  | .datetime a, .datetime b => a == b
  | .array a, .array b => sameItems a b
  | .table a, .table b => sameEntries a b
  | _, _ => false

/-- Whether two lists of values are the same. -/
def sameItems : List Value → List Value → Bool
  | [], [] => true
  | v :: vs, w :: ws => same v w && sameItems vs ws
  | _, _ => false

/-- Whether two lists of entries are the same. -/
def sameEntries : List (String × Value) → List (String × Value) → Bool
  | [], [] => true
  | (k, v) :: vs, (l, w) :: ws => k == l && same v w && sameEntries vs ws
  | _, _ => false

end

-- The derive handler does not go into the lists inside values, so equality is decided by hand.
mutual

theorem same_iff : ∀ v w : Value, same v w ↔ v = w
  | .string a, w => by cases w <;> simp [same]
  | .integer a, w => by cases w <;> simp [same]
  | .float a, w => by cases w <;> simp [same]
  | .boolean a, w => by cases w <;> simp [same]
  | .datetime a, w => by cases w <;> simp [same]
  | .array a, w => by cases w <;> simp [same, sameItems_iff a]
  | .table a, w => by cases w <;> simp [same, sameEntries_iff a]

theorem sameItems_iff : ∀ vs ws : List Value, sameItems vs ws ↔ vs = ws
  | [], ws => by cases ws <;> simp [sameItems]
  | v :: vs, ws => by cases ws <;> simp [sameItems, same_iff v, sameItems_iff vs]

theorem sameEntries_iff : ∀ vs ws : List (String × Value), sameEntries vs ws ↔ vs = ws
  | [], ws => by cases ws <;> simp [sameEntries]
  | (k, v) :: vs, ws => by cases ws <;> simp [sameEntries, same_iff v, sameEntries_iff vs, Prod.ext_iff,
      and_assoc]

end

end Value

instance : DecidableEq Value := fun v w => decidable_of_iff _ (Value.same_iff v w)

/-- Values by key. -/
abbrev Table := List (String × Value)

namespace Table

/-- The value of a key. -/
def get? (t : Table) (key : String) : Option Value := t.lookup key

/-- The table with the value of a key set. -/
def insert (t : Table) (key : String) (v : Value) : Table :=
  match t with
  | [] => [(key, v)]
  | (k, w) :: rest => if k = key then (k, v) :: rest else (k, w) :: insert rest key v

/-- Lays `overlay` over `base`. A key of the overlay replaces the same key of the base, but a table
over a table is laid over it in turn. -/
def merge (base : Table) (overlay : Table) : Table :=
  match overlay with
  | [] => base
  | (key, v) :: rest =>
    let v' := match v, base.get? key with
      | .table inner, some (.table existing) => .table (merge existing inner)
      | v, _ => v
    merge (base.insert key v') rest

end Table

end Toml

end BlockStore
