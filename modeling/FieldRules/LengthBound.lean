import FieldRules.Value
import FieldRules.Text.Decimal
/-!
# LengthBound — how long a value may be

A bound is a least length or a closed range of lengths.  Read from a value, a count stands for a least length and an
array of exactly two counts for a range; **anything else is kept as it was and allows no length at all**.  A count is
written as a whole number or as its digits in a string.
-/
namespace FieldRules

inductive LengthBound where
  | atLeast (n : UInt64)
  | within (lo hi : UInt64)
  | unusable (v : Value)

/-- The count that a value denotes, if it denotes one. -/
def Value.count? : Value → Option UInt64
  | .int n => n.toUInt64?
  | .string s => Text.count? s
  | _ => none

namespace LengthBound

def ofValue (v : Value) : LengthBound :=
  match v.count? with
  | some n => .atLeast n
  | none =>
    match v with
    | .array [lo, hi] =>
      match lo.count?, hi.count? with
      | some a, some b => .within a b
      | _, _ => .unusable v
    | v => .unusable v

/-- A bound as it is written: a count by its number, a range by an array of two. -/
def toValue : LengthBound → Value
  | .atLeast n => .int (.ofUInt64 n)
  | .within lo hi => .array [.int (.ofUInt64 lo), .int (.ofUInt64 hi)]
  | .unusable v => v

/-- A range is closed at both ends, and empty when its ends are the wrong way round. -/
def allows (bound : LengthBound) (length : Nat) : Bool :=
  match bound with
  | .atLeast n => n.toNat ≤ length
  | .within lo hi => lo.toNat ≤ length && length ≤ hi.toNat
  | .unusable _ => false

end LengthBound
end FieldRules
