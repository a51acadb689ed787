/-!
# Integer — the whole numbers a value can hold

A value's whole numbers lie between `-2^63` and `2^64 - 1`: a word read with a sign or without one.  The two readings
overlap on the numbers below `2^63`.  A count, for instance a length that a rule asks for, is an unsigned word.
-/
namespace FieldRules

structure Integer where
  val : Int
  lower : -(1 <<< 63 : Nat) ≤ val
  upper : val < (1 <<< 64 : Nat)
  deriving DecidableEq

namespace Integer

def ofInt? (n : Int) : Option Integer :=
  if h : -(1 <<< 63 : Nat) ≤ n ∧ n < (1 <<< 64 : Nat) then some ⟨n, h.1, h.2⟩ else none

def ofUInt64 (n : UInt64) : Integer :=
  ⟨n.toNat, by have := n.toNat_lt; omega, by have := n.toNat_lt; omega⟩

def toUInt64? (n : Integer) : Option UInt64 :=
  if 0 ≤ n.val then some (UInt64.ofNat n.val.toNat) else none

def signed? (n : Integer) : Option Int :=
  if n.val < (1 <<< 63 : Nat) then some n.val else none

theorem ext_val {m n : Integer} (h : m.val = n.val) : m = n := by
  cases m; cases n; cases h; rfl

/-- **A whole number is a count iff it is not negative**, and then it is that count. -/
theorem toUInt64?_eq_some_iff (n : Integer) (c : UInt64) : n.toUInt64? = some c ↔ n.val = c.toNat := by
  have hu := n.upper
  have hc := c.toNat_lt
  unfold toUInt64?
  split
  · rename_i h
    rw [Option.some_inj, ← UInt64.toNat_inj, UInt64.toNat_ofNat_of_lt' (by simp [UInt64.size]; omega)]
    omega
  · rename_i h
    simp only [reduceCtorEq, false_iff]
    omega

@[simp] theorem toUInt64?_ofUInt64 (c : UInt64) : (ofUInt64 c).toUInt64? = some c :=
  (toUInt64?_eq_some_iff _ _).2 rfl

end Integer
end FieldRules
