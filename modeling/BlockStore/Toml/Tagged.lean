import BlockStore.Toml.Scalar

/-!
# Tables that stand for points in time

Formats without points in time carry one as a table whose first key is a reserved tag and whose
value is text. A table with that tag inside a document is read the same way, whether it was meant
so or not: the text must give a point in time, and whatever follows the tag means nothing. The
document itself is a table in any case.

## Main definitions

* `Toml.timeTag`: the reserved key.
* `Toml.taggedTime`: the point in time that a table stands for.
* `Toml.Value.untag?`, `Toml.untagEntries?`: a value and a table without such tables inside.
-/

namespace BlockStore

namespace Toml

/-- The key that marks a table as a point in time when it comes first. -/
def timeTag : String := "$__toml_private_datetime"

/-- The point in time that a value gives under the tag, which must be text. -/
def taggedTime : Value → Option Value
  | .string text => (Datetime.ofText? text).map .datetime
  | _ => none

mutual

/-- The value with every tagged table in it replaced by its point in time. -/
def Value.untag? : Value → Option Value
  | .array items => (untagItems? items).map .array
  | .table ((key, v) :: rest) =>
    if key = timeTag then taggedTime v
    else do return .table ((key, ← v.untag?) :: (← untagEntries? rest))
  | v => some v

/-- The values in order, each with its tagged tables replaced. -/
def untagItems? : List Value → Option (List Value)
  | [] => some []
  | v :: rest => do return (← v.untag?) :: (← untagItems? rest)

/-- The table with the tagged tables in its values replaced. -/
def untagEntries? : List (String × Value) → Option Table
  | [] => some []
  | (key, v) :: rest => do return (key, ← v.untag?) :: (← untagEntries? rest)

end

end Toml

end BlockStore
