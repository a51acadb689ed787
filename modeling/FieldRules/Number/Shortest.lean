import FieldRules.Number.Binary64
/-!
# Shortest — floating-point numbers in decimal

A floating-point number stands for every real that rounds to it: an interval around its value, closed exactly when its
significand is even.  It is written with **the fewest digits that name a real of that interval**, and of those the one
nearest to the value.  Everything is done on natural numbers, over one denominator.  With at most `k` digits the only
candidates are the value's two neighbours on the grid of `k`-digit numbers, and seventeen digits are always enough.
-/
namespace FieldRules

/-- `digits * 10 ^ exponent`. -/
structure Decimal where
  digits : Nat
  exponent : Int

namespace Binary64

/-- A positive value and the ends of its interval over one denominator: everything that reads back as the number. -/
structure Span where
  low : Nat
  value : Nat
  high : Nat
  denominator : Nat
  closed : Bool

/-- The interval's ends lie half a step away, but the lower one only a quarter at a power of two, where the steps
below are half as wide. -/
def span (x : Binary64) : Span :=
  let e := x.exponentField
  let m := if e = 0 then x.fraction else 1 <<< 52 + x.fraction
  let q : Int := (if e = 0 then 1 else (e : Int)) - 1077
  let below := if x.fraction = 0 ∧ 1 < e then 1 else 2
  let up := 1 <<< q.toNat
  ⟨(4 * m - below) * up, 4 * m * up, (4 * m + 2) * up, 1 <<< (-q).toNat, m % 2 = 0⟩

namespace Span

def scale (s : Span) (p : Int) : Span :=
  let up := Nat.pow 10 (-p).toNat
  ⟨s.low * up, s.value * up, s.high * up, s.denominator * Nat.pow 10 p.toNat, s.closed⟩

/-- Whether the whole number `c` lies in the interval. -/
def allows (s : Span) (c : Nat) : Bool :=
  if s.closed then s.low ≤ c * s.denominator && c * s.denominator ≤ s.high
  else s.low < c * s.denominator && c * s.denominator < s.high

/-- Of the whole numbers next to the value, the nearest one in the interval; of two equally near, the even one. -/
def nearest? (s : Span) : Option Nat :=
  let c := s.value / s.denominator
  let below := 2 * (s.value % s.denominator)
  let candidates :=
    if below < s.denominator ∨ (below = s.denominator ∧ c % 2 = 0) then [c, c + 1] else [c + 1, c]
  candidates.find? s.allows

/-- The exponent of the value's first digit. -/
def leading (s : Span) : Int :=
  if s.denominator ≤ s.value then ((Nat.repr (s.value / s.denominator)).length : Int) - 1
  else -(((List.range 400).find? (fun j => s.denominator ≤ s.value * Nat.pow 10 j)).getD 0 : Nat)

def shortest (s : Span) : Decimal :=
  let grid (k : Nat) : Option Decimal :=
    let p : Int := s.leading - k
    (s.scale p).nearest?.map fun c => ⟨c, p⟩
  ((List.range 18).findSome? grid).getD ⟨0, 0⟩

end Span

/-- The digits of a number that is neither zero nor infinite nor a NaN, its sign aside. -/
def shortest (x : Binary64) : Decimal := x.span.shortest

/-! ## The text -/

def zeros (n : Int) : String := String.ofList (List.replicate n.toNat '0')

/-- Digits with a point after the first `n` of them. -/
def pointAfter (n : Nat) (digits : List Char) : String :=
  String.ofList (digits.take n) ++ "." ++ String.ofList (digits.drop n)

/-- Positional from a hundred-thousandth up to below 10^16, else with an exponent; a whole number keeps one zero behind
its point. -/
def Decimal.text (d : Decimal) : String :=
  let all := (Nat.repr d.digits).toList
  let significant := (all.reverse.dropWhile (· == '0')).reverse
  let point : Int := d.exponent + all.length
  let missing := point - significant.length
  if 0 ≤ missing ∧ point ≤ 16 then String.ofList significant ++ zeros missing ++ ".0"
  else if 0 < point ∧ point ≤ 16 then pointAfter point.toNat significant
  else if -5 < point ∧ point ≤ 0 then "0." ++ zeros (-point) ++ String.ofList significant
  else
    let mantissa := if significant.length = 1 then String.ofList significant else pointAfter 1 significant
    let sign := if point ≤ 0 then "e-" else "e+"
    mantissa ++ sign ++ Nat.repr (point - 1).natAbs

def text (x : Binary64) : String :=
  let sign := if x.isNegative then "-" else ""
  if x.isNaN then "NaN"
  else if x.exponentField = 2047 then sign ++ "inf"
  else if x.isZero then sign ++ "0.0"
  else sign ++ Decimal.text x.shortest

end Binary64
end FieldRules
