import FieldRules.Check.Ready
import FieldRules.Proofs.Counts
/-!
# Integers — two readings of a number

Whether a value is a whole number and whether it is a count are asked in two places.  The first looks at the characters
alone and takes a sign of either kind; the second takes blanks and a plus, computes what the digits are worth and gives
up at `2^64`.  Where a text writes a whole number, its parts are the sign and the digits (`Text.IsSigned`).

**Such a text is a numeral for what its digits are worth, unless its sign is a minus** (`Text.IsSigned.isNumeral_iff`):
nothing in it is blank, so that a trim takes nothing away.  **And what is left of a numeral without its blanks writes a
whole number** (`Text.isInteger_trim_of_isNumeral`).  Hence the two readings differ in no more than blanks, a minus and
the size of the number.
-/
namespace FieldRules
namespace Text

/-- The text is a sign or none and then digits, at least one, with nothing around them. -/
structure IsSigned (s : String) (sign digits : List Char) : Prop where
  eq_append : s.toList = sign ++ digits
  sign_cases : sign = [] ∨ sign = ['+'] ∨ sign = ['-']
  ne_nil : digits ≠ []
  isDigit : ∀ c ∈ digits, c.isDigit = true

theorem exists_eq_append_dropSign (cs : List Char) :
    ∃ sign, (sign = [] ∨ sign = ['+'] ∨ sign = ['-']) ∧ cs = sign ++ dropSign cs := by
  unfold dropSign
  split
  · exact ⟨['+'], .inr (.inl rfl), rfl⟩
  · exact ⟨['-'], .inr (.inr rfl), rfl⟩
  · exact ⟨[], .inl rfl, rfl⟩

/-- Digits begin with no sign. -/
theorem dropSign_append {sign digits : List Char} (hsign : sign = [] ∨ sign = ['+'] ∨ sign = ['-'])
    (hdigits : ∀ c ∈ digits, c.isDigit = true) : dropSign (sign ++ digits) = digits := by
  rcases hsign with rfl | rfl | rfl
  · rw [List.nil_append]
    unfold dropSign
    split
    · exact absurd (hdigits '+' List.mem_cons_self) (by decide)
    · exact absurd (hdigits '-' List.mem_cons_self) (by decide)
    · rfl
  · rfl
  · rfl

theorem isDigits_iff (cs : List Char) : isDigits cs = true ↔ cs ≠ [] ∧ ∀ c ∈ cs, c.isDigit = true := by
  unfold isDigits
  rw [Bool.and_eq_true, Bool.not_eq_true', List.isEmpty_eq_false_iff, List.all_eq_true]

/-- **A text is taken for a whole number exactly when it is a sign or none and digits.** -/
theorem isInteger_iff (s : String) : isInteger s = true ↔ ∃ sign digits, IsSigned s sign digits := by
  unfold isInteger
  rw [isDigits_iff]
  constructor
  · rintro ⟨hne, hdigits⟩
    obtain ⟨sign, hsign, hs⟩ := exists_eq_append_dropSign s.toList
    exact ⟨sign, _, hs, hsign, hne, hdigits⟩
  · rintro ⟨sign, digits, hs, hsign, hne, hdigits⟩
    rw [hs, dropSign_append hsign hdigits]
    exact ⟨hne, hdigits⟩

/-! ## Blanks -/

theorem trim_eq_self {cs : List Char} (h : ∀ c ∈ cs, isBlank c = false) : trim cs = cs := by
  by_cases hnil : cs = []
  · subst hnil
    rfl
  · have htrim : trim ([] ++ cs ++ []) = cs := trim_append (by simp) (by simp) hnil
      (fun c hc => h c (List.mem_of_mem_head? hc)) (fun c hc => h c (List.mem_of_getLast? hc))
    rwa [List.nil_append, List.append_nil] at htrim

namespace IsSigned

variable {s : String} {sign digits : List Char}

theorem isBlank_eq_false (h : IsSigned s sign digits) : ∀ c ∈ s.toList, isBlank c = false := by
  intro c hc
  rw [h.eq_append, List.mem_append] at hc
  rcases hc with hc | hc
  · rcases h.sign_cases with rfl | rfl | rfl
    · cases hc
    · rw [List.mem_singleton.1 hc]
      decide
    · rw [List.mem_singleton.1 hc]
      decide
  · exact isBlank_eq_false_of_isDigit (h.isDigit c hc)

/-- There are no blanks around a whole number. -/
theorem trim_toList (h : IsSigned s sign digits) : trim s.toList = s.toList := trim_eq_self h.isBlank_eq_false

/-- **A signed text is a numeral for what its digits are worth, unless its sign is a minus.** -/
theorem isNumeral_iff (h : IsSigned s sign digits) (n : Nat) :
    IsNumeral s n ↔ sign ≠ ['-'] ∧ Nat.ofDigitChars 10 digits 0 = n := by
  constructor
  · rintro ⟨before, plus, numeral, after, hs, hbefore, hafter, hplus, hne, hnumeral, hvalue⟩
    -- the text is cut in two ways, and both leave digits behind the sign
    have heq : sign ++ digits = plus ++ numeral := by
      rw [← h.eq_append, ← h.trim_toList, hs, trim_numeral hbefore hafter hplus hne hnumeral]
    have hplus' : plus = [] ∨ plus = ['+'] ∨ plus = ['-'] := hplus.imp_right .inl
    have hdigits : digits = numeral := by
      rw [← dropSign_append h.sign_cases h.isDigit, heq, dropSign_append hplus' hnumeral]
    rw [hdigits, List.append_cancel_right_eq] at heq
    refine ⟨?_, hdigits ▸ hvalue⟩
    rw [heq]
    rcases hplus with rfl | rfl <;> decide
  · rintro ⟨hminus, hvalue⟩
    have hplus : sign = [] ∨ sign = ['+'] := h.sign_cases.imp_right fun hsign => hsign.resolve_right hminus
    exact ⟨[], sign, digits, [], by simp [h.eq_append], by simp, by simp, hplus, h.ne_nil, h.isDigit, hvalue⟩

end IsSigned

/-- **What is left of a numeral without its blanks is taken for a whole number.** -/
theorem isInteger_trim_of_isNumeral {s : String} {n : Nat} (h : IsNumeral s n) :
    isInteger (String.ofList (trim s.toList)) = true := by
  obtain ⟨before, sign, digits, after, hs, hbefore, hafter, hsign, hne, hdigits, -⟩ := h
  rw [hs, trim_numeral hbefore hafter hsign hne hdigits, isInteger_iff]
  exact ⟨sign, digits, String.toList_ofList, hsign.imp_right .inl, hne, hdigits⟩

end Text

/-! ## Bounds -/

namespace LengthBound

theorem ofValue_string_eq_atLeast_iff (s : String) (n : UInt64) :
    ofValue (.string s) = .atLeast n ↔ Text.IsNumeral s n.toNat := by
  rw [ofValue_eq_atLeast_iff]
  exact ⟨fun h => by cases h with | numeral hs => exact hs, fun h => .numeral h n.toNat_lt_size⟩

/-- A text is a least length or no bound at all. -/
theorem ofValue_string_eq_unusable_iff (s : String) :
    ofValue (.string s) = .unusable (.string s) ↔ ∀ n, Text.IsNumeral s n → UInt64.size ≤ n := by
  rw [ofValue_eq_unusable_iff]
  constructor
  · rintro ⟨-, hcount, -⟩ n hn
    by_contra hlt
    exact hcount n (.numeral hn (Nat.lt_of_not_le hlt))
  · intro h
    refine ⟨rfl, fun n hn => ?_, fun _ _ _ _ heq => by cases heq⟩
    cases hn with
    | numeral hs hlt => exact absurd (h n hs) (Nat.not_le.2 hlt)

theorem ofValue_int_eq_atLeast_iff (i : Integer) (n : UInt64) : ofValue (.int i) = .atLeast n ↔ i = .ofUInt64 n := by
  rw [ofValue_eq_atLeast_iff]
  constructor
  · intro h
    cases h with
    | whole hval => exact Integer.ext_val hval
  · rintro rfl
    exact .whole rfl n.toNat_lt_size

theorem ofValue_float (x : Binary64) : ofValue (.float x) = .unusable (.float x) := rfl

end LengthBound

/-- **Whole numbers and counts are read alike where both may be read.**  A text is taken for a whole number exactly when
it is a sign or none and then digits, however many; it has no blanks around it.  A text that is a least length is one,
once its blanks are gone.  The other way round, a whole number without a minus is the least length that its digits are
worth, if that lies below `2^64`; behind a minus, and from there on, it is no bound.  Among numbers, the least lengths
are the whole ones that are not negative; a floating-point number is neither a whole number nor a bound. -/
theorem integers_agree_with_counts :
    (∀ s, (Value.string s).isInteger = true ↔ ∃ sign digits, Text.IsSigned s sign digits) ∧
    (∀ s, (Value.string s).isInteger = true → Text.trim s.toList = s.toList) ∧
    (∀ s n, LengthBound.ofValue (.string s) = .atLeast n →
      (Value.string (String.ofList (Text.trim s.toList))).isInteger = true) ∧
    (∀ s sign digits, Text.IsSigned s sign digits →
      (sign ≠ ['-'] → Nat.ofDigitChars 10 digits 0 < UInt64.size →
        LengthBound.ofValue (.string s) = .atLeast (UInt64.ofNat (Nat.ofDigitChars 10 digits 0))) ∧
      (sign = ['-'] ∨ UInt64.size ≤ Nat.ofDigitChars 10 digits 0 →
        LengthBound.ofValue (.string s) = .unusable (.string s))) ∧
    (∀ v : Value, v.kind = .number → ∀ n,
      LengthBound.ofValue v = .atLeast n ↔ v.isInteger = true ∧ v = .int (.ofUInt64 n)) ∧
    ∀ x, (Value.float x).isInteger = false ∧ LengthBound.ofValue (.float x) = .unusable (.float x) := by
  refine ⟨Text.isInteger_iff, fun s hs => ?_, fun s n hn => ?_, fun s sign digits hsigned => ⟨?_, ?_⟩,
    fun v hkind n => ?_, fun x => ⟨rfl, LengthBound.ofValue_float x⟩⟩
  · obtain ⟨sign, digits, hsigned⟩ := (Text.isInteger_iff s).1 hs
    exact hsigned.trim_toList
  · exact Text.isInteger_trim_of_isNumeral ((LengthBound.ofValue_string_eq_atLeast_iff s n).1 hn)
  · intro hminus hlt
    rw [LengthBound.ofValue_string_eq_atLeast_iff, hsigned.isNumeral_iff, UInt64.toNat_ofNat_of_lt' hlt]
    exact ⟨hminus, rfl⟩
  · intro hnone
    rw [LengthBound.ofValue_string_eq_unusable_iff]
    intro n hn
    obtain ⟨hminus, rfl⟩ := (hsigned.isNumeral_iff n).1 hn
    exact hnone.resolve_left hminus
  · cases v with
    | int i => rw [LengthBound.ofValue_int_eq_atLeast_iff, Value.int.injEq, Value.isInteger, and_iff_right rfl]
    | float x => simp [LengthBound.ofValue_float]
    | _ => cases hkind

/-- The digits of the largest count behind zeros and a plus, of the number after it, and of zero behind a minus: all
three write whole numbers, and the first alone is a count. -/
theorem integers_agree_with_counts_largest :
    let largest := "+0018446744073709551615"
    (Value.string largest).isInteger = true ∧
      LengthBound.ofValue (.string largest) = .atLeast 18446744073709551615 ∧
      (Value.string "18446744073709551616").isInteger = true ∧
      LengthBound.ofValue (.string "18446744073709551616") = .unusable (.string "18446744073709551616") ∧
      (Value.string "-0").isInteger = true ∧ LengthBound.ofValue (.string "-0") = .unusable (.string "-0") ∧
      LengthBound.ofValue (.string "\u3000+7\n") = .atLeast 7 ∧ (Value.string "\u3000+7\n").isInteger = false ∧
      (Value.string (String.ofList (Text.trim "\u3000+7\n".toList))).isInteger = true ∧
      Value.kind (.int (.ofUInt64 7)) = .number ∧ LengthBound.ofValue (.int (.ofUInt64 7)) = .atLeast 7 := by
  intro largest
  obtain ⟨hwrites, -, hleast, hsigned, hnumber, -⟩ := integers_agree_with_counts
  have hlargest : Text.IsSigned largest ['+'] "0018446744073709551615".toList :=
    ⟨by decide, .inr (.inl rfl), by decide, List.all_eq_true.1 (by decide)⟩
  have hnext : Text.IsSigned "18446744073709551616" [] "18446744073709551616".toList :=
    ⟨by decide, .inl rfl, by decide, List.all_eq_true.1 (by decide)⟩
  have hminus : Text.IsSigned "-0" ['-'] ['0'] :=
    ⟨by decide, .inr (.inr rfl), by decide, List.all_eq_true.1 (by decide)⟩
  have hseven : LengthBound.ofValue (.string "\u3000+7\n") = .atLeast 7 :=
    (LengthBound.ofValue_string_eq_atLeast_iff _ _).2 ((Text.count?_eq_some_iff _ _).1 (by decide))
  exact ⟨(hwrites largest).2 ⟨_, _, hlargest⟩, (hsigned _ _ _ hlargest).1 (by decide) (by decide),
    (hwrites _).2 ⟨_, _, hnext⟩, (hsigned _ _ _ hnext).2 (.inr (by decide)),
    (hwrites _).2 ⟨_, _, hminus⟩, (hsigned _ _ _ hminus).2 (.inl rfl), hseven, by decide, hleast _ _ hseven, rfl,
    (hnumber _ rfl 7).2 ⟨rfl, rfl⟩⟩

end FieldRules
