import FieldRules.LengthBound
import Mathlib.Data.List.Basic
import Mathlib.Data.List.TakeWhile
/-!
# Counts — which values are bounds

A bound is read from a count or from an array of two.  What denotes a count is said here by its parts, with no word on
how it is read: a whole number that is not negative, or a numeral, which is digits with at most one plus before them and
blanks around (`Text.IsNumeral`), and the number lies below `2^64` in either case (`Value.Denotes`).

**A value is read as a count exactly when it denotes one** (`Value.count?_eq_some_iff`): a trim finds the digits of a
numeral wherever they stand among blanks, for neither a digit nor a plus is blank.  A bound is then one of three, and a
value that is no count and no two of them is kept as it was (`LengthBound.ofValue_cases`).
-/
namespace FieldRules
namespace Text

/-! ## Trimmed texts -/

theorem isBlank_eq_false_of_isDigit {c : Char} (h : c.isDigit = true) : isBlank c = false := by
  obtain ⟨hlo, hhi⟩ := Char.isDigit_iff_toNat.1 h
  have h0 : '0'.toNat = 48 := rfl
  have h9 : '9'.toNat = 57 := rfl
  rw [h0] at hlo
  rw [h9] at hhi
  simp only [isBlank, CharSet.contains, blank, Run.contains, List.any_cons, List.any_nil, Bool.or_false,
    Bool.or_eq_false_iff, Bool.and_eq_false_iff, decide_eq_false_iff_not, beq_eq_false_iff_ne]
  omega

theorem trimLeft_append {before cs : List Char} (hbefore : ∀ c ∈ before, isBlank c = true)
    (hcs : ∀ c ∈ cs.head?, isBlank c = false) : trimLeft (before ++ cs) = cs := by
  rw [trimLeft, List.dropWhile_append_of_pos hbefore]
  cases cs with
  | nil => rfl
  | cons c cs => rw [List.dropWhile_cons_of_neg (by rw [hcs c rfl]; exact Bool.false_ne_true)]

/-- **Blanks around a text are what a trim takes away**, if the text neither begins nor ends with one. -/
theorem trim_append {before mid after : List Char} (hbefore : ∀ c ∈ before, isBlank c = true)
    (hafter : ∀ c ∈ after, isBlank c = true) (hne : mid ≠ []) (hhead : ∀ c ∈ mid.head?, isBlank c = false)
    (hlast : ∀ c ∈ mid.getLast?, isBlank c = false) : trim (before ++ mid ++ after) = mid := by
  have hleft : trimLeft (before ++ mid ++ after) = mid ++ after := by
    rw [List.append_assoc]
    refine trimLeft_append hbefore fun c hc => hhead c ?_
    rwa [List.head?_append_of_ne_nil mid hne] at hc
  have hright : trimLeft (mid ++ after).reverse = mid.reverse := by
    rw [List.reverse_append]
    refine trimLeft_append (fun c hc => hafter c (List.mem_reverse.1 hc)) fun c hc => hlast c ?_
    rwa [List.head?_reverse] at hc
  rw [trim, hleft, hright, List.reverse_reverse]

theorem exists_eq_append_trimLeft (cs : List Char) :
    ∃ before, cs = before ++ trimLeft cs ∧ ∀ c ∈ before, isBlank c = true :=
  ⟨cs.takeWhile isBlank, List.takeWhile_append_dropWhile.symm, fun _ hc => List.mem_takeWhile_imp hc⟩

/-- **A trim takes away nothing but blanks.** -/
theorem exists_eq_append_trim (cs : List Char) :
    ∃ before after, cs = before ++ trim cs ++ after ∧
      (∀ c ∈ before, isBlank c = true) ∧ ∀ c ∈ after, isBlank c = true := by
  obtain ⟨before, hcs, hbefore⟩ := exists_eq_append_trimLeft cs
  obtain ⟨after, hrest, hafter⟩ := exists_eq_append_trimLeft (trimLeft cs).reverse
  refine ⟨before, after.reverse, ?_, hbefore, fun c hc => hafter c (List.mem_reverse.1 hc)⟩
  have hback : trimLeft cs = trim cs ++ after.reverse := by
    rw [trim, ← List.reverse_append, ← hrest, List.reverse_reverse]
  rw [List.append_assoc, ← hback, ← hcs]

/-! ## Numerals -/

/-- The text is a numeral for `n`: at least one digit and nothing but digits, with at most one plus before them and
blanks around. -/
def IsNumeral (s : String) (n : Nat) : Prop :=
  ∃ before sign digits after : List Char, s.toList = before ++ (sign ++ digits) ++ after ∧
    (∀ c ∈ before, isBlank c = true) ∧ (∀ c ∈ after, isBlank c = true) ∧
    (sign = [] ∨ sign = ['+']) ∧ digits ≠ [] ∧ (∀ c ∈ digits, c.isDigit = true) ∧
    Nat.ofDigitChars 10 digits 0 = n

theorem digits?_eq_some_iff (cs : List Char) (n : Nat) :
    digits? cs = some n ↔ cs ≠ [] ∧ (∀ c ∈ cs, c.isDigit = true) ∧ Nat.ofDigitChars 10 cs 0 = n := by
  simp [digits?, isDigits, and_assoc]

theorem exists_eq_append_dropPlus (cs : List Char) :
    ∃ sign, (sign = [] ∨ sign = ['+']) ∧ cs = sign ++ dropPlus cs := by
  unfold dropPlus
  split
  · exact ⟨['+'], .inr rfl, rfl⟩
  · exact ⟨[], .inl rfl, rfl⟩

theorem dropPlus_append {sign digits : List Char} (hsign : sign = [] ∨ sign = ['+'])
    (hdigits : ∀ c ∈ digits, c.isDigit = true) : dropPlus (sign ++ digits) = digits := by
  obtain rfl | rfl := hsign
  · rw [List.nil_append]
    unfold dropPlus
    split
    · have hplus := hdigits '+' List.mem_cons_self
      exact absurd hplus (by decide)
    · rfl
  · rfl

theorem trim_numeral {before sign digits after : List Char} (hbefore : ∀ c ∈ before, isBlank c = true)
    (hafter : ∀ c ∈ after, isBlank c = true) (hsign : sign = [] ∨ sign = ['+']) (hne : digits ≠ [])
    (hdigits : ∀ c ∈ digits, c.isDigit = true) :
    trim (before ++ (sign ++ digits) ++ after) = sign ++ digits := by
  have hmid : ∀ c ∈ sign ++ digits, isBlank c = false := by
    intro c hc
    obtain hc | hc := List.mem_append.1 hc
    · obtain rfl | rfl := hsign
      · cases hc
      · rw [List.mem_singleton.1 hc]
        decide
    · exact isBlank_eq_false_of_isDigit (hdigits c hc)
  refine trim_append hbefore hafter (by simp [hne]) (fun c hc => ?_) fun c hc => ?_
  · exact hmid c (List.mem_of_mem_head? hc)
  · exact hmid c (List.mem_of_getLast? hc)

/-- **A text is read as a count exactly when it is a numeral for it.** -/
theorem count?_eq_some_iff (s : String) (n : UInt64) : count? s = some n ↔ IsNumeral s n.toNat := by
  have hread : count? s = some n ↔ digits? (dropPlus (trim s.toList)) = some n.toNat := by
    have hn := n.toNat_lt
    unfold count?
    cases digits? (dropPlus (trim s.toList)) with
    | none => simp
    | some m =>
      simp only [Option.some.injEq]
      split
      · rename_i hm
        rw [Option.some.injEq, ← UInt64.toNat_inj, UInt64.toNat_ofNat_of_lt' hm]
      · rename_i hm
        simp only [UInt64.size] at hm
        simp only [reduceCtorEq, false_iff]
        omega
  rw [hread, digits?_eq_some_iff]
  constructor
  · rintro ⟨hne, hdigits, hvalue⟩
    obtain ⟨before, after, hs, hbefore, hafter⟩ := exists_eq_append_trim s.toList
    obtain ⟨sign, hsign, hmid⟩ := exists_eq_append_dropPlus (trim s.toList)
    exact ⟨before, sign, dropPlus (trim s.toList), after, by rw [← hmid, ← hs], hbefore, hafter, hsign, hne, hdigits,
      hvalue⟩
  · rintro ⟨before, sign, digits, after, hs, hbefore, hafter, hsign, hne, hdigits, hvalue⟩
    rw [hs, trim_numeral hbefore hafter hsign hne hdigits, dropPlus_append hsign hdigits]
    exact ⟨hne, hdigits, hvalue⟩

theorem isNumeral_repr (n : Nat) : IsNumeral (Nat.repr n) n := by
  refine ⟨[], [], Nat.toDigits 10 n, [], ?_, by simp, by simp, .inl rfl, Nat.toDigits_ne_nil, fun c hc => ?_, ?_⟩
  · rw [Nat.repr_eq_ofList_toDigits, String.toList_ofList]
    simp
  · exact Nat.isDigit_of_mem_toDigits (by decide) (by decide) hc
  · exact Nat.ofDigitChars_toDigits (by decide) (by decide)

end Text

/-! ## Counts -/

namespace Value

/-- The value denotes the count `n`: it is the whole number `n`, or a numeral for it, and `n` is no more than a word of
64 bits can hold. -/
inductive Denotes : Value → Nat → Prop
  | whole {i : Integer} {n : Nat} (hval : i.val = n) (hlt : n < UInt64.size) : Denotes (.int i) n
  | numeral {s : String} {n : Nat} (hs : Text.IsNumeral s n) (hlt : n < UInt64.size) : Denotes (.string s) n

/-- **A value is read as a count exactly when it denotes one.** -/
theorem count?_eq_some_iff (v : Value) (n : UInt64) : v.count? = some n ↔ v.Denotes n.toNat := by
  have hlt := n.toNat_lt_size
  cases v with
  | int i =>
    rw [count?, Integer.toUInt64?_eq_some_iff]
    exact ⟨fun h => .whole h hlt, fun h => by cases h with | whole hval => exact hval⟩
  | string s =>
    rw [count?, Text.count?_eq_some_iff]
    exact ⟨fun h => .numeral h hlt, fun h => by cases h with | numeral hs => exact hs⟩
  | _ =>
    constructor
    · intro h
      cases h
    · intro h
      cases h

theorem exists_count?_of_denotes {v : Value} {n : Nat} (h : v.Denotes n) :
    ∃ c : UInt64, c.toNat = n ∧ v.count? = some c := by
  have hlt : n < UInt64.size := by cases h with | whole _ hlt => exact hlt | numeral _ hlt => exact hlt
  have hc : (UInt64.ofNat n).toNat = n := UInt64.toNat_ofNat_of_lt' hlt
  exact ⟨UInt64.ofNat n, hc, (count?_eq_some_iff v _).2 (hc.symm ▸ h)⟩

theorem count?_eq_none_iff (v : Value) : v.count? = none ↔ ∀ n, ¬v.Denotes n := by
  rw [Option.eq_none_iff_forall_ne_some]
  constructor
  · intro h n hn
    obtain ⟨c, -, hc⟩ := exists_count?_of_denotes hn
    exact h c hc
  · intro h c hc
    exact h c.toNat ((count?_eq_some_iff v c).1 hc)

/-- A count as its number, and as its digits. -/
def spellings (n : UInt64) : List Value := [.int (.ofUInt64 n), .string (Nat.repr n.toNat)]

theorem denotes_of_mem_spellings {n : UInt64} {v : Value} (hv : v ∈ spellings n) : v.Denotes n.toNat := by
  have hlt := n.toNat_lt_size
  obtain rfl | rfl := List.mem_pair.1 hv
  · exact .whole rfl hlt
  · exact .numeral (Text.isNumeral_repr n.toNat) hlt

end Value

/-! ## Bounds -/

namespace LengthBound

/-- **A bound is read in one of three ways.** -/
theorem ofValue_cases (v : Value) :
    (∃ n, v.count? = some n ∧ ofValue v = .atLeast n) ∨
    (∃ lo hi a b, v = .array [lo, hi] ∧ lo.count? = some a ∧ hi.count? = some b ∧ ofValue v = .within a b) ∨
    (v.count? = none ∧ (∀ lo hi a b, v = .array [lo, hi] → lo.count? = some a → hi.count? ≠ some b) ∧
      ofValue v = .unusable v) := by
  unfold ofValue
  cases hcount : v.count? with
  | some n => exact .inl ⟨n, rfl, rfl⟩
  | none =>
    right
    simp only
    split
    · rename_i lo hi
      split
      · rename_i a b ha hb
        exact .inl ⟨lo, hi, a, b, rfl, ha, hb, rfl⟩
      · rename_i hno
        refine .inr ⟨trivial, fun lo' hi' a b hv ha hb => ?_, rfl⟩
        cases hv
        exact hno a b ha hb
    · rename_i hno
      exact .inr ⟨trivial, fun lo hi a b hv => absurd hv (hno lo hi), rfl⟩

theorem ofValue_eq_atLeast_iff (v : Value) (n : UInt64) : ofValue v = .atLeast n ↔ v.Denotes n.toNat := by
  rw [← Value.count?_eq_some_iff]
  rcases ofValue_cases v with ⟨m, hm, hv⟩ | ⟨lo, hi, a, b, rfl, -, -, hv⟩ | ⟨hnone, -, hv⟩
  · rw [hv, hm, LengthBound.atLeast.injEq, Option.some.injEq]
  · rw [hv]
    simp [Value.count?]
  · rw [hv, hnone]
    simp

theorem ofValue_eq_within_iff (v : Value) (a b : UInt64) :
    ofValue v = .within a b ↔ ∃ lo hi, v = .array [lo, hi] ∧ lo.Denotes a.toNat ∧ hi.Denotes b.toNat := by
  simp only [← Value.count?_eq_some_iff]
  rcases ofValue_cases v with ⟨m, hm, hv⟩ | ⟨lo, hi, a', b', rfl, ha, hb, hv⟩ | ⟨-, hno, hv⟩
  · rw [hv]
    simp only [reduceCtorEq, false_iff]
    rintro ⟨lo, hi, rfl, -, -⟩
    cases hm
  · rw [hv, LengthBound.within.injEq]
    constructor
    · rintro ⟨rfl, rfl⟩
      exact ⟨lo, hi, rfl, ha, hb⟩
    · rintro ⟨lo', hi', heq, ha', hb'⟩
      cases heq
      exact ⟨Option.some.inj (ha.symm.trans ha'), Option.some.inj (hb.symm.trans hb')⟩
  · rw [hv]
    simp only [reduceCtorEq, false_iff]
    rintro ⟨lo, hi, heq, ha, hb⟩
    exact absurd hb (hno lo hi a b heq ha)

theorem ofValue_eq_unusable_iff (v w : Value) :
    ofValue v = .unusable w ↔
      w = v ∧ (∀ n, ¬v.Denotes n) ∧ ∀ lo hi a b, v = .array [lo, hi] → lo.Denotes a → ¬hi.Denotes b := by
  constructor
  · intro h
    rcases ofValue_cases v with ⟨m, -, hv⟩ | ⟨lo, hi, a, b, -, -, -, hv⟩ | ⟨hnone, hno, hv⟩
    · rw [hv] at h
      cases h
    · rw [hv] at h
      cases h
    · rw [hv, LengthBound.unusable.injEq] at h
      refine ⟨h.symm, (Value.count?_eq_none_iff v).1 hnone, fun lo hi a b heq hlo hhi => ?_⟩
      obtain ⟨a', -, ha⟩ := Value.exists_count?_of_denotes hlo
      obtain ⟨b', -, hb⟩ := Value.exists_count?_of_denotes hhi
      exact hno lo hi a' b' heq ha hb
  · rintro ⟨rfl, hcount, hpair⟩
    rcases ofValue_cases w with ⟨m, hm, -⟩ | ⟨lo, hi, a, b, heq, ha, hb, -⟩ | ⟨-, -, hv⟩
    · exact absurd ((Value.count?_eq_some_iff w m).1 hm) (hcount m.toNat)
    · have hlo := (Value.count?_eq_some_iff lo a).1 ha
      have hhi := (Value.count?_eq_some_iff hi b).1 hb
      exact absurd hhi (hpair lo hi a.toNat b.toNat heq hlo)
    · exact hv

theorem ofValue_array_of_denotes {lo hi : Value} {a b : UInt64} (hlo : lo.Denotes a.toNat) (hhi : hi.Denotes b.toNat) :
    ofValue (.array [lo, hi]) = .within a b :=
  (ofValue_eq_within_iff _ a b).2 ⟨lo, hi, rfl, hlo, hhi⟩

theorem ofValue_toValue_ofValue (v : Value) : ofValue (ofValue v).toValue = ofValue v := by
  have hnumber : ∀ n : UInt64, (Value.int (.ofUInt64 n)).Denotes n.toNat := fun n =>
    Value.denotes_of_mem_spellings List.mem_cons_self
  rcases ofValue_cases v with ⟨n, -, hv⟩ | ⟨lo, hi, a, b, -, -, -, hv⟩ | ⟨-, -, hv⟩
  · rw [hv]
    exact (ofValue_eq_atLeast_iff _ n).2 (hnumber n)
  · rw [hv]
    exact ofValue_array_of_denotes (hnumber a) (hnumber b)
  · rw [hv]
    exact hv

/-- **Counts and pairs of counts are bounds, and nothing else is.**  A value is read as a least length exactly when it
denotes a count, as a range exactly when it is an array of two values that do, and is kept as it was in every other
case.  Hence a count may be written by its number or by its digits, alone or in an array of two, and a bound that was
read once is read from its own written form again. -/
theorem ofValue_recognises_counts :
    (∀ v n, ofValue v = .atLeast n ↔ v.Denotes n.toNat) ∧
    (∀ v a b, ofValue v = .within a b ↔
      ∃ lo hi, v = .array [lo, hi] ∧ lo.Denotes a.toNat ∧ hi.Denotes b.toNat) ∧
    (∀ v w, ofValue v = .unusable w ↔
      w = v ∧ (∀ n, ¬v.Denotes n) ∧ ∀ lo hi a b, v = .array [lo, hi] → lo.Denotes a → ¬hi.Denotes b) ∧
    (∀ n, ∀ v ∈ Value.spellings n, ofValue v = .atLeast n) ∧
    (∀ a b, ∀ lo ∈ Value.spellings a, ∀ hi ∈ Value.spellings b, ofValue (.array [lo, hi]) = .within a b) ∧
    ∀ v, ofValue (ofValue v).toValue = ofValue v := by
  refine ⟨ofValue_eq_atLeast_iff, ofValue_eq_within_iff, ofValue_eq_unusable_iff, fun n v hv => ?_,
    fun a b lo hlo hi hhi => ?_, ofValue_toValue_ofValue⟩
  · exact (ofValue_eq_atLeast_iff v n).2 (Value.denotes_of_mem_spellings hv)
  · exact ofValue_array_of_denotes (Value.denotes_of_mem_spellings hlo) (Value.denotes_of_mem_spellings hhi)

/-- The largest count, with blanks around it, a plus and zeros in front; what comes close to a count is none. -/
theorem ofValue_recognises_counts_largest :
    let largest : UInt64 := 18446744073709551615
    let padded : Value := .string "\u3000 +0018446744073709551615\n"
    let plain : Value := .string "18446744073709551615"
    let others : List Value := [.string "18446744073709551616", .string "-0", .string "+", .string "", .string "1 0",
      .float ⟨0x4008000000000000⟩]
    padded.Denotes largest.toNat ∧ ofValue padded = .atLeast largest ∧
      plain ∈ Value.spellings largest ∧ ofValue plain = .atLeast largest ∧
      ofValue (.array [padded, .int (.ofUInt64 4)]) = .within largest 4 ∧
      ∀ v ∈ others, ofValue v = .unusable v := by
  intro largest padded plain others
  obtain ⟨hcount, hpair, hother, hspelling, -, -⟩ := ofValue_recognises_counts
  have hpadded : padded.Denotes largest.toNat := (Value.count?_eq_some_iff padded largest).1 (by decide)
  have hfour : (Value.int (.ofUInt64 4)).Denotes (4 : UInt64).toNat := Value.denotes_of_mem_spellings List.mem_cons_self
  have hplain : plain ∈ Value.spellings largest :=
    List.mem_cons_of_mem _ (List.mem_singleton.2 (congrArg Value.string (by decide)))
  have hnone : ∀ v ∈ others, v.count? = none := by decide
  have hkind : ∀ v ∈ others, v.kind ≠ .array := by decide
  refine ⟨hpadded, (hcount padded largest).2 hpadded, hplain, hspelling largest plain hplain,
    (hpair _ largest 4).2 ⟨_, _, rfl, hpadded, hfour⟩, fun v hv => ?_⟩
  refine (hother v v).2 ⟨rfl, (Value.count?_eq_none_iff v).1 (hnone v hv), fun lo hi a b heq => ?_⟩
  exact absurd (congrArg Value.kind heq) (hkind v hv)

end LengthBound
end FieldRules
