/-!
# Binary64 — floating-point numbers as words

A floating-point number is kept as its word of 64 bits: sign, eleven bits of exponent, 52 of fraction.  All that rules
ask of one is whether it is zero, whether it is a number at all, and whether two are equal: **the two zeros are equal
and a NaN equals nothing**, itself included.
-/
namespace FieldRules

structure Binary64 where
  bits : UInt64
  deriving DecidableEq

namespace Binary64

def isNegative (x : Binary64) : Bool := decide (1 <<< 63 ≤ x.bits.toNat)

def magnitude (x : Binary64) : Nat := x.bits.toNat % 1 <<< 63

def exponentField (x : Binary64) : Nat := x.magnitude >>> 52

def fraction (x : Binary64) : Nat := x.magnitude % 1 <<< 52

def isZero (x : Binary64) : Bool := x.magnitude == 0

def isNaN (x : Binary64) : Bool := x.exponentField == 2047 && x.fraction != 0

/-- Equality of the numbers, not of the words. -/
def equal (x y : Binary64) : Bool :=
  !x.isNaN && !y.isNaN && (x.bits == y.bits || x.isZero && y.isZero)

end Binary64
end FieldRules
