import FieldRules.Proofs.Measures
import FieldRules.Proofs.Quotes
/-!
# Explanations — what is said of a length

A length is judged in one place and explained in another: the check goes by the bound and the length, and so does the
default wording, which says what was asked for and what was given.  The two belong together if nothing is lost between
a bound and its text.  **The text tells the bound and the length** (`Wording.expected_eq_iff`, `Wording.given_inj`): the
numbers in it are written in digits, the first full stop ends what was asked for, and bounds that cannot be used have
one text for all.  So what a reader takes from the message of a failed check is a length that the bound does not ask
for.
-/
namespace FieldRules

namespace Text

theorem repr_inj {m n : Nat} : Nat.repr m = Nat.repr n ↔ m = n := by
  rw [Nat.repr_eq_ofList_toDigits, Nat.repr_eq_ofList_toDigits, String.ofList_inj]
  exact ⟨toDigits_inj (by decide) (by decide) m n, fun h => by rw [h]⟩

theorem not_mem_repr {c : Char} (h : c.isDigit = false) (n : Nat) : c ∉ (Nat.repr n).toList := by
  intro hc
  rw [Nat.repr_eq_ofList_toDigits, String.toList_ofList] at hc
  rw [Nat.isDigit_of_mem_toDigits (by decide) (by decide) hc] at h
  cases h

end Text

namespace Wording

/-! ## What was asked for -/

theorem expected_within_inj {lo hi lo' hi' : UInt64}
    (h : expected (some (.within lo hi)) = expected (some (.within lo' hi'))) : lo = lo' ∧ hi = hi' := by
  have hword : ∀ {m n : UInt64}, (Nat.repr m.toNat).toList = (Nat.repr n.toNat).toList → m = n := fun h =>
    UInt64.toNat_inj.1 (Text.repr_inj.1 (String.toList_inj.1 h))
  have hends : Nat.repr lo.toNat ++ ("," ++ (Nat.repr hi.toNat ++ "] symbols."))
      = Nat.repr lo'.toNat ++ ("," ++ (Nat.repr hi'.toNat ++ "] symbols.")) := by
    simpa only [expected, String.append_assoc, String.append_right_inj] using h
  have hlist := congrArg String.toList hends
  simp only [String.toList_append] at hlist
  obtain ⟨hlo, hhi⟩ := Text.append_cons_inj (Text.not_mem_repr (by decide) _) (Text.not_mem_repr (by decide) _) hlist
  exact ⟨hword hlo, hword (List.append_cancel_right hhi)⟩

/-- **The text of a bound tells the bound**, unless it cannot be used. -/
theorem expected_eq_iff (b b' : LengthBound) :
    expected (some b) = expected (some b') ↔ b = b' ∨ ∃ v v', b = .unusable v ∧ b' = .unusable v' := by
  cases b with
  | atLeast n =>
    cases b' with
    | atLeast m =>
      have hnumber : Nat.repr n.toNat = Nat.repr m.toNat ↔ n = m := Text.repr_inj.trans UInt64.toNat_inj
      simp [expected, hnumber]
    | within lo hi => simp [expected, ← String.toList_inj]
    | unusable v => simp [expected, ← String.toList_inj]
  | within lo hi =>
    cases b' with
    | atLeast n => simp [expected, ← String.toList_inj]
    | within lo' hi' =>
      constructor
      · intro h
        obtain ⟨rfl, rfl⟩ := expected_within_inj h
        exact .inl rfl
      · rintro (h | ⟨v, v', h, -⟩)
        · rw [h]
        · cases h
    | unusable v => simp [expected, ← String.toList_inj]
  | unusable v =>
    cases b' with
    | atLeast n => simp [expected, ← String.toList_inj]
    | within lo hi => simp [expected, ← String.toList_inj]
    | unusable v' => simp [expected]

theorem expected_eq_atLeast_iff (b : LengthBound) (n : UInt64) :
    expected (some b) = "Expected min " ++ Nat.repr n.toNat ++ " symbols." ↔ b = .atLeast n :=
  (expected_eq_iff b (.atLeast n)).trans (by simp)

theorem expected_eq_within_iff (b : LengthBound) (lo hi : UInt64) :
    expected (some b) = "Expected [" ++ Nat.repr lo.toNat ++ "," ++ Nat.repr hi.toNat ++ "] symbols." ↔
      b = .within lo hi :=
  (expected_eq_iff b (.within lo hi)).trans (by simp)

theorem expected_eq_invalid_iff (b : LengthBound) :
    expected (some b) = "Invalid len." ↔ ∃ v, b = .unusable v := by
  have hnull : b = .unusable .null → ∃ v, b = .unusable v := fun hb => ⟨.null, hb⟩
  exact (expected_eq_iff b (.unusable .null)).trans (by simp [or_iff_right_of_imp hnull])

/-- Its only full stop is its last character. -/
theorem exists_expected_eq_append (b : LengthBound) :
    ∃ cs : List Char, (expected (some b)).toList = cs ++ ['.'] ∧ '.' ∉ cs := by
  have hnumber : ∀ n : Nat, '.' ∉ (Nat.repr n).toList := Text.not_mem_repr (by decide)
  cases b with
  | atLeast n =>
    exact ⟨"Expected min ".toList ++ (Nat.repr n.toNat).toList ++ " symbols".toList, by simp [expected],
      by simpa using hnumber n.toNat⟩
  | within lo hi =>
    have hnumbers := And.intro (hnumber lo.toNat) (hnumber hi.toNat)
    exact ⟨"Expected [".toList ++ (Nat.repr lo.toNat).toList ++ ",".toList ++ (Nat.repr hi.toNat).toList
      ++ "] symbols".toList, by simp [expected], by simpa using hnumbers⟩
  | unusable v => exact ⟨"Invalid len".toList, by simp [expected], by simp⟩

theorem expected_append_inj {b b' : LengthBound} {rest rest' : String}
    (h : expected (some b) ++ rest = expected (some b') ++ rest') :
    expected (some b) = expected (some b') ∧ rest = rest' := by
  obtain ⟨cs, hcs, hstop⟩ := exists_expected_eq_append b
  obtain ⟨cs', hcs', hstop'⟩ := exists_expected_eq_append b'
  have hlist := congrArg String.toList h
  rw [String.toList_append, String.toList_append, hcs, hcs', List.append_assoc, List.append_assoc] at hlist
  obtain ⟨rfl, hrest⟩ := Text.append_cons_inj hstop hstop' hlist
  exact ⟨String.toList_inj.1 (hcs.trans hcs'.symm), String.toList_inj.1 hrest⟩

/-! ## What was given -/

/-- **The text of a length tells the length**, and whether there is one. -/
theorem given_inj (l l' : Option Nat) : given l = given l' ↔ l = l' := by
  have hnone : ∀ n : Nat, Nat.repr n ≠ "n/a" := by
    intro n h
    have hn : 'n' ∈ (Nat.repr n).toList := by rw [h]; simp
    exact Text.not_mem_repr (by decide) n hn
  cases l with
  | none =>
    cases l' with
    | none => simp
    | some n => simp [given, (hnone n).symm]
  | some n =>
    cases l' with
    | none => simp [given, hnone n]
    | some m => rw [given, given, Text.repr_inj, Option.some.injEq]

end Wording

/-! ## The message -/

section Message

variable {r : Rule} {bound : LengthBound}

theorem RuleWith.message_len (hbound : r.len = some bound) (hwording : r.wordings.get? "len" = none) (seen : Observed) :
    r.message "len" seen = Wording.expected (some bound) ++ " " ++ "Given: " ++ Wording.given seen.length? := by
  have hlabel : " Given: " = " " ++ "Given: " := rfl
  have hdefault : r.message "len" seen
      = Wording.expected (some bound) ++ " Given: " ++ Wording.given seen.length? := by
    rw [message, hwording, ← hbound]
    rfl
  rw [hdefault, hlabel, ← String.append_assoc]

/-- **Who reads a bound and a length in the message of a rule reads its own bound and the length of the value.** -/
theorem RuleWith.message_len_eq_iff (hbound : r.len = some bound) (hwording : r.wordings.get? "len" = none)
    (seen : Observed) (b : LengthBound) (length : Nat) :
    r.message "len" seen = Wording.expected (some b) ++ " " ++ "Given: " ++ Nat.repr length ↔
      Wording.expected (some bound) = Wording.expected (some b) ∧ seen.length? = some length := by
  rw [message_len hbound hwording]
  constructor
  · intro h
    simp only [String.append_assoc] at h
    obtain ⟨hasked, hgiven⟩ := Wording.expected_append_inj h
    rw [String.append_right_inj, String.append_right_inj] at hgiven
    exact ⟨hasked, (Wording.given_inj _ (some length)).1 hgiven⟩
  · rintro ⟨hasked, hlength⟩
    rw [hasked, hlength]
    rfl

end Message

/-- **The default message for a length tells the truth.**  It says what was asked for and what was given: the first part
is that of a least length, of a range or of a bound that cannot be used exactly if the bound is that, and the second is
the length of the value, or says that it has none.  When the check fails, a length that stands in the message of a bound
that can be used is one that the bound in the message rules out; the check passes exactly when there is a length and
the bound asks for it. -/
theorem RuleWith.message_len_tells_truth {r : Rule} {bound : LengthBound} (hbound : r.len = some bound)
    (hwording : r.wordings.get? "len" = none) (seen : Observed) :
    (∃ asked given : String, r.message "len" seen = asked ++ " " ++ "Given: " ++ given ∧
      (∀ n : UInt64, asked = "Expected min " ++ Nat.repr n.toNat ++ " symbols." ↔ bound = .atLeast n) ∧
      (∀ lo hi : UInt64, asked = "Expected [" ++ Nat.repr lo.toNat ++ "," ++ Nat.repr hi.toNat ++ "] symbols." ↔
        bound = .within lo hi) ∧
      (asked = "Invalid len." ↔ ∃ v, bound = .unusable v) ∧
      (∀ length, given = Nat.repr length ↔ seen.length? = some length) ∧
      (given = "n/a" ↔ seen.length? = none)) ∧
    (∀ length, seen.length? = some length ↔ seen.Measures length) ∧
    (Parameter.len.passes seen r = false → ∀ length : Nat,
      (∀ n : UInt64,
        r.message "len" seen
            = "Expected min " ++ Nat.repr n.toNat ++ " symbols." ++ " " ++ "Given: " ++ Nat.repr length →
          length < n.toNat) ∧
      ∀ lo hi : UInt64,
        r.message "len" seen
            = "Expected [" ++ Nat.repr lo.toNat ++ "," ++ Nat.repr hi.toNat ++ "] symbols." ++ " " ++ "Given: "
              ++ Nat.repr length →
          length < lo.toNat ∨ hi.toNat < length) ∧
    (Parameter.len.passes seen r = true ↔ ∃ length, seen.length? = some length ∧ bound.Fits length) := by
  refine ⟨⟨Wording.expected (some bound), Wording.given seen.length?, message_len hbound hwording seen,
    Wording.expected_eq_atLeast_iff bound, Wording.expected_eq_within_iff bound, Wording.expected_eq_invalid_iff bound,
    fun length => Wording.given_inj _ (some length), Wording.given_inj _ none⟩,
    seen.length?_eq_some_iff, fun hfails length => ?_, ?_⟩
  · have hmisfit : seen.length? = some length → ¬bound.Fits length := by
      intro hlength hfits
      rw [(Parameter.passes_len_iff hbound).2 ⟨length, (seen.length?_eq_some_iff length).1 hlength, hfits⟩] at hfails
      cases hfails
    refine ⟨fun n hread => ?_, fun lo hi hread => ?_⟩
    · obtain ⟨hasked, hlength⟩ := (message_len_eq_iff hbound hwording seen (.atLeast n) length).1 hread
      have hmisfit := hmisfit hlength
      rw [(Wording.expected_eq_atLeast_iff bound n).1 hasked, LengthBound.fits_atLeast_iff] at hmisfit
      omega
    · obtain ⟨hasked, hlength⟩ := (message_len_eq_iff hbound hwording seen (.within lo hi) length).1 hread
      have hmisfit := hmisfit hlength
      rw [(Wording.expected_eq_within_iff bound lo hi).1 hasked, LengthBound.fits_within_iff] at hmisfit
      omega
  · simp only [Parameter.passes_len_iff hbound, seen.length?_eq_some_iff]

/-- A range whose ends are the wrong way round, and five characters, which is more than one end and less than the
other. -/
theorem RuleWith.message_len_tells_truth_inverted :
    let r : Rule := (on (.single "nick")).add (.len (.within 9 4))
    let seen : Observed := .single (.string "žlutá")
    r.len = some (.within 9 4) ∧ r.wordings.get? "len" = none ∧ Parameter.len.passes seen r = false ∧
      r.message "len" seen = "Expected [9,4] symbols. Given: 5" ∧ (5 < 9 ∨ 4 < 5) ∧
      ¬∃ length, seen.length? = some length ∧ (LengthBound.within 9 4).Fits length := by
  intro r seen
  have hbound : r.len = some (.within 9 4) := rfl
  have hfails : Parameter.len.passes seen r = false := by decide
  obtain ⟨-, -, htruth, hpasses⟩ := message_len_tells_truth hbound rfl seen
  refine ⟨hbound, rfl, hfails, by decide, (htruth hfails 5).2 9 4 (by decide), ?_⟩
  rw [← hpasses, hfails]
  exact Bool.false_ne_true

end FieldRules
