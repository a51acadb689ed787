import FieldRules.Check.Ready
import FieldRules.Proofs.Presence
/-!
# Measures — the ways of judging size

Size is judged in four places: whether a value is empty, how long it is, whether a bound allows that length, and
whether a string has a length between limits.  Each goes through the kinds of values by itself.  What they have to agree
on is said once: strings have their characters for a length, arrays their elements and groups their slots
(`Observed.Measures`), and a length fits a bound that names it or limits it on both sides (`LengthBound.Fits`).

**Nothing long is empty and nothing empty is long** (`Observed.isEmpty_iff_of_measures`); of what has no length, only an
object with members is not empty (`Observed.isEmpty_eq_false_iff_of_length?_eq_none`).
-/
namespace FieldRules

/-! ## Lengths -/

namespace Observed

/-- The length of what can be measured; an open slot counts like any other. -/
inductive Measures : Observed → Nat → Prop
  | characters (s : String) : Measures (.single (.string s)) s.toList.length
  | elements (items : List Value) : Measures (.single (.array items)) items.length
  | slots (slots : List (Option Value)) : Measures (.group slots) slots.length

theorem length?_eq_some_iff (seen : Observed) (n : Nat) : seen.length? = some n ↔ seen.Measures n := by
  constructor
  · intro h
    cases seen with
    | missing => cases h
    | single v =>
      cases v with
      | string s =>
        cases h
        rw [← String.length_toList]
        exact .characters s
      | array items => cases h; exact .elements items
      | _ => cases h
    | group slots => cases h; exact .slots slots
  · intro h
    cases h with
    | characters s => rw [length?, String.length_toList]
    | elements items => rfl
    | slots slots => rfl

/-- **What has a length is empty exactly when the length is zero.** -/
theorem isEmpty_iff_of_measures {seen : Observed} {n : Nat} (h : seen.Measures n) : seen.isEmpty = true ↔ n = 0 := by
  cases h with
  | characters s =>
    rw [isEmpty, Value.isEmpty, String.isEmpty_iff, String.length_toList, String.length_eq_zero_iff]
  | elements items => rw [isEmpty, Value.isEmpty, List.isEmpty_iff, List.length_eq_zero_iff]
  | slots slots => rw [isEmpty, List.isEmpty_iff, List.length_eq_zero_iff]

theorem isEmpty_eq_false_iff_of_length?_eq_none {seen : Observed} (h : seen.length? = none) :
    seen.isEmpty = false ↔ ∃ ms, seen = .single (.object ms) ∧ ms ≠ [] := by
  cases seen with
  | missing => simp [isEmpty]
  | single v => cases v <;> simp_all [length?, isEmpty, Value.isEmpty]
  | group slots => cases h

end Observed

/-! ## Bounds -/

namespace LengthBound

/-- The bound asks for the length.  There is no length that an unusable bound asks for. -/
inductive Fits : LengthBound → Nat → Prop
  | atLeast {n : UInt64} {length : Nat} (h : n.toNat ≤ length) : Fits (.atLeast n) length
  | within {lo hi : UInt64} {length : Nat} (hlo : lo.toNat ≤ length) (hhi : length ≤ hi.toNat) :
    Fits (.within lo hi) length

theorem fits_atLeast_iff (n : UInt64) (length : Nat) : (atLeast n).Fits length ↔ n.toNat ≤ length :=
  ⟨fun h => by cases h; assumption, .atLeast⟩

theorem fits_within_iff (lo hi : UInt64) (length : Nat) :
    (within lo hi).Fits length ↔ lo.toNat ≤ length ∧ length ≤ hi.toNat :=
  ⟨fun h => by cases h; exact ⟨‹_›, ‹_›⟩, fun h => .within h.1 h.2⟩

theorem allows_iff (bound : LengthBound) (length : Nat) : bound.allows length = true ↔ bound.Fits length := by
  cases bound with
  | atLeast n => simp [allows, fits_atLeast_iff]
  | within lo hi => simp [allows, fits_within_iff]
  | unusable v =>
    constructor
    · intro h
      cases h
    · intro h
      cases h

end LengthBound

namespace Parameter

section Passes

variable {π φ : Type} {r : RuleWith π φ} {seen : Observed}

theorem passes_len_iff_of_measures {bound : LengthBound} (hbound : r.len = some bound) {n : Nat}
    (h : seen.Measures n) : len.passes seen r = true ↔ bound.Fits n := by
  rw [passes, hbound, (seen.length?_eq_some_iff n).2 h]
  exact bound.allows_iff n

theorem passes_len_eq_false_of_length?_eq_none (h : seen.length? = none) : len.passes seen r = false := by
  rw [passes, h]
  cases r.len <;> rfl

/-- **The length passes when there is one and the bound asks for it.** -/
theorem passes_len_iff {bound : LengthBound} (hbound : r.len = some bound) :
    len.passes seen r = true ↔ ∃ n, seen.Measures n ∧ bound.Fits n := by
  cases hlength : seen.length? with
  | none =>
    have hnone : ∀ n, ¬seen.Measures n := by
      intro n hn
      rw [(seen.length?_eq_some_iff n).2 hn] at hlength
      cases hlength
    simp [passes_len_eq_false_of_length?_eq_none hlength, hnone]
  | some n =>
    have hn := (seen.length?_eq_some_iff n).1 hlength
    rw [passes_len_iff_of_measures hbound hn]
    refine ⟨fun hfits => ⟨n, hn, hfits⟩, fun ⟨m, hm, hfits⟩ => ?_⟩
    rw [(seen.length?_eq_some_iff m).2 hm, Option.some.injEq] at hlength
    rwa [← hlength]

theorem passes_empty_iff {want : Bool} (hwant : r.empty = some want) :
    empty.passes seen r = true ↔ seen.isEmpty = want := by
  rw [passes, hwant, Option.getD_some, beq_iff_eq]

end Passes

end Parameter

/-! ## Agreement -/

section Agreement

variable {π φ : Type} (r : RuleWith π φ) {seen : Observed}

theorem passes_add_empty_true_eq_not (seen : Observed) :
    Parameter.empty.passes seen (r.add (.empty true)) = !Parameter.empty.passes seen (r.add (.empty false)) := by
  have htrue : Parameter.empty.passes seen (r.add (.empty true)) = true ↔ seen.isEmpty = true :=
    Parameter.passes_empty_iff rfl
  have hfalse : Parameter.empty.passes seen (r.add (.empty false)) = true ↔ seen.isEmpty = false :=
    Parameter.passes_empty_iff rfl
  rw [Bool.eq_iff_iff, htrue, Bool.not_eq_true', ← Bool.not_eq_true, hfalse, Bool.not_eq_false]

/-- Not to be empty is to have a length of at least one. -/
theorem passes_add_empty_false_eq {n : Nat} (h : seen.Measures n) :
    Parameter.empty.passes seen (r.add (.empty false)) = Parameter.len.passes seen (r.add (.len (.atLeast 1))) := by
  have hone : (1 : UInt64).toNat = 1 := rfl
  rw [Bool.eq_iff_iff, Parameter.passes_empty_iff (r := r.add (.empty false)) rfl,
    Parameter.passes_len_iff_of_measures (r := r.add (.len (.atLeast 1))) rfl h, LengthBound.fits_atLeast_iff, hone,
    ← Bool.not_eq_true, Observed.isEmpty_iff_of_measures h]
  omega

/-- To be empty is to have a length between zero and zero. -/
theorem passes_add_empty_true_eq {n : Nat} (h : seen.Measures n) :
    Parameter.empty.passes seen (r.add (.empty true)) = Parameter.len.passes seen (r.add (.len (.within 0 0))) := by
  have hzero : (0 : UInt64).toNat = 0 := rfl
  rw [Bool.eq_iff_iff, Parameter.passes_empty_iff (r := r.add (.empty true)) rfl,
    Parameter.passes_len_iff_of_measures (r := r.add (.len (.within 0 0))) rfl h, LengthBound.fits_within_iff, hzero,
    Observed.isEmpty_iff_of_measures h]
  omega

theorem passes_len_single_string_eq_hasLength (s : String) (least most : UInt64) :
    Parameter.len.passes (.single (.string s)) (r.add (.len (.atLeast least))) = Text.hasLength least.toNat none s ∧
    Parameter.len.passes (.single (.string s)) (r.add (.len (.within least most)))
      = Text.hasLength least.toNat (some most.toNat) s := by
  have hs := Observed.Measures.characters s
  constructor
  · rw [Bool.eq_iff_iff, Parameter.passes_len_iff_of_measures (r := r.add (.len (.atLeast least))) rfl hs,
      LengthBound.fits_atLeast_iff, String.length_toList]
    simp [Text.hasLength]
  · rw [Bool.eq_iff_iff, Parameter.passes_len_iff_of_measures (r := r.add (.len (.within least most))) rfl hs,
      LengthBound.fits_within_iff, String.length_toList]
    simp [Text.hasLength]

/-- **All ways of judging size agree.**  Of the two wishes for emptiness each value meets exactly one.  A value with a
length is empty if the length is zero, so that wanting it filled is a bound of one and wanting it empty is a range of
nothing else than zero; a value without a length passes no bound, and it is filled only if it is an object with members.
On a string the bounds are the limits of a test on its length, also where the lower one is above the upper.  And a group
has a slot for each of its names, whatever the subject: that is its length, and it is empty only without names. -/
theorem measures_agree (r : Rule) (seen : Observed) :
    Parameter.empty.passes seen (r.add (.empty true)) = !Parameter.empty.passes seen (r.add (.empty false)) ∧
    (∀ n, seen.length? = some n →
      (seen.isEmpty = true ↔ n = 0) ∧
      Parameter.empty.passes seen (r.add (.empty false)) = Parameter.len.passes seen (r.add (.len (.atLeast 1))) ∧
      Parameter.empty.passes seen (r.add (.empty true)) = Parameter.len.passes seen (r.add (.len (.within 0 0)))) ∧
    (seen.length? = none →
      (∀ bound, Parameter.len.passes seen (r.add (.len bound)) = false) ∧
      (seen.isEmpty = false ↔ ∃ ms, seen = .single (.object ms) ∧ ms ≠ [])) ∧
    (∀ (s : String) (least most : UInt64),
      Parameter.len.passes (.single (.string s)) (r.add (.len (.atLeast least))) = Text.hasLength least.toNat none s ∧
      Parameter.len.passes (.single (.string s)) (r.add (.len (.within least most)))
        = Text.hasLength least.toNat (some most.toNat) s) ∧
    ∀ names, r.target = .group names → ∀ subject : Option Value,
      (r.target.observe subject).length? = some names.length ∧
      ((r.target.observe subject).isEmpty = true ↔ names.length = 0) := by
  refine ⟨passes_add_empty_true_eq_not r seen, fun n hlength => ?_, fun hnone => ?_,
    passes_len_single_string_eq_hasLength r, fun names htarget subject => ?_⟩
  · have hn := (seen.length?_eq_some_iff n).1 hlength
    exact ⟨Observed.isEmpty_iff_of_measures hn, passes_add_empty_false_eq r hn, passes_add_empty_true_eq r hn⟩
  · exact ⟨fun bound => Parameter.passes_len_eq_false_of_length?_eq_none hnone,
      Observed.isEmpty_eq_false_iff_of_length?_eq_none hnone⟩
  · rw [htarget, Target.length?_observe_group, Target.isEmpty_observe_group, List.isEmpty_iff, List.length_eq_zero_iff]
    exact ⟨rfl, Iff.rfl⟩

end Agreement

/-- Four characters in six bytes, an object with a member, and a group that names a field twice, none of them there. -/
theorem measures_agree_filled :
    let r : Rule := RuleWith.on (.group ["from", "to", "from"])
    let word : Observed := .single (.string "žluť")
    let record : Observed := .single (.object [("nick", .null)])
    word.length? = some 4 ∧ word.isEmpty = false ∧
      Parameter.empty.passes word (r.add (.empty false)) = Parameter.len.passes word (r.add (.len (.atLeast 1))) ∧
      Parameter.len.passes word (r.add (.len (.within 9 4))) = Text.hasLength 9 (some 4) "žluť" ∧
      record.length? = none ∧ record.isEmpty = false ∧
      Parameter.len.passes record (r.add (.len (.atLeast 0))) = false ∧
      r.target = .group ["from", "to", "from"] ∧ (r.target.observe none).length? = some 3 := by
  intro r word record
  have hword : word.length? = some 4 := by decide
  have hrecord : record.length? = none := rfl
  obtain ⟨-, hlong, -, hlimits, hgroup⟩ := measures_agree r word
  obtain ⟨-, -, hshort, -, -⟩ := measures_agree r record
  obtain ⟨hempty, hfilled, -⟩ := hlong 4 hword
  obtain ⟨hbounds, hobject⟩ := hshort hrecord
  refine ⟨hword, ?_, hfilled, (hlimits "žluť" 9 4).2, hrecord, ?_, hbounds _, rfl, (hgroup _ rfl none).1⟩
  · rw [← Bool.not_eq_true, hempty]
    decide
  · exact hobject.2 ⟨_, rfl, List.cons_ne_nil _ _⟩

end FieldRules
