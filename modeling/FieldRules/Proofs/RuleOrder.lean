import FieldRules.Proofs.Findings
import FieldRules.Proofs.Tables
import Mathlib.Data.List.FinRange
import Mathlib.Data.List.Sort
import Mathlib.Logic.Equiv.Defs
/-!
# RuleOrder — where the order of rules matters

Rules that share no field can come in any order: a report has the same entries whichever of them is first, if not in
the same order.  To a field it matters only which rules name it and how they follow one another
(`get?_validate_naming`), and any two rules that name it share a field.  **A reordering that keeps rules with a shared
field in their order therefore leaves the rules of every single field as they are** (`naming_eq_of_isReordering`).
-/
namespace FieldRules

/-! ## The rules of one field -/

/-- The rules that name a field, in order. -/
def naming (field : String) (rules : List Rule) : List Rule :=
  rules.filter fun r => decide (field ∈ r.target.names)

/-- **The entry of a field is settled by the rules that name it.** -/
theorem get?_validate_naming (subject : Option Value) (rules : List Rule) (call : Overrides) (field : String) :
    (validate subject (naming field rules) call).get? field = (validate subject rules call).get? field := by
  rw [get?_validate, get?_validate, naming, ← List.filter_reverse, ← List.head?_filterMap, ← List.head?_filterMap,
    List.filterMap_filter]
  refine congrArg List.head? (List.filterMap_congr fun r _ => ?_)
  by_cases hname : field ∈ r.target.names
  · simp [hname]
  · simp [hname, RuleWith.finding?]

/-! ## Reorderings -/

/-- Some field is named by both rules, so that the later one can overwrite what the earlier one has put down. -/
def RuleWith.SharesField (r s : Rule) : Prop := ∃ field ∈ r.target.names, field ∈ s.target.names

instance (r s : Rule) : Decidable (r.SharesField s) :=
  inferInstanceAs (Decidable (∃ field ∈ r.target.names, field ∈ s.target.names))

/-- The same rules in another order, where each goes to a place of its own and rules that share a field stay in the
order they had. -/
def IsReordering (before after : List Rule) : Prop :=
  ∃ place : Fin before.length ≃ Fin after.length,
    (∀ i, after.get (place i) = before.get i) ∧
    ∀ i j, i < j → (before.get i).SharesField (before.get j) → place i < place j

section Positions

variable {α : Type}

/-- The places of a list where `p` holds, from the left. -/
def positions (p : α → Bool) (l : List α) : List (Fin l.length) :=
  (List.finRange l.length).filter fun i => p (l.get i)

theorem mem_positions {p : α → Bool} {l : List α} {i : Fin l.length} : i ∈ positions p l ↔ p (l.get i) = true := by
  simp [positions]

theorem pairwise_positions (p : α → Bool) (l : List α) : (positions p l).Pairwise (· < ·) :=
  (List.pairwise_lt_finRange l.length).filter _

theorem map_get_positions (p : α → Bool) (l : List α) : (positions p l).map l.get = l.filter p := by
  conv => rhs; rw [← List.map_get_finRange l, List.filter_map]
  rfl

/-- **Places that are carried over in their order are the places of the other list.** -/
theorem positions_eq_map {p : α → Bool} {before after : List α} (place : Fin before.length ≃ Fin after.length)
    (hget : ∀ i, after.get (place i) = before.get i)
    (hord : ∀ i j, i < j → p (before.get i) = true → p (before.get j) = true → place i < place j) :
    positions p after = (positions p before).map place := by
  have hcarried : ((positions p before).map place).Pairwise (· < ·) := by
    rw [List.pairwise_map]
    refine (pairwise_positions p before).imp_of_mem fun {i j} hi hj hij => ?_
    exact hord i j hij (mem_positions.1 hi) (mem_positions.1 hj)
  refine (pairwise_positions p after).eq_of_mem_iff hcarried fun k => ?_
  obtain ⟨i, rfl⟩ := place.surjective k
  rw [mem_positions, hget i, List.mem_map_of_injective place.injective, mem_positions]

end Positions

/-- **A reordering leaves the rules of every field as they are.** -/
theorem naming_eq_of_isReordering {before after : List Rule} (h : IsReordering before after) (field : String) :
    naming field after = naming field before := by
  obtain ⟨place, hget, hord⟩ := h
  have hplaces : positions (fun r : Rule => decide (field ∈ r.target.names)) after
      = (positions (fun r : Rule => decide (field ∈ r.target.names)) before).map place := by
    refine positions_eq_map place hget fun i j hij hi hj => hord i j hij ⟨field, ?_, ?_⟩
    · exact of_decide_eq_true hi
    · exact of_decide_eq_true hj
  have hrules : after.get ∘ place = before.get := funext hget
  rw [naming, naming, ← map_get_positions, ← map_get_positions, hplaces, List.map_map, hrules]

/-- **The order of rules matters only among rules that share a field.**  Reordering the others gives a report that is
equal, field by field, with the checks of each entry in their order.  To validate against all the rules a second time
changes nothing at all, not even the order of the fields. -/
theorem validate_reordering (subject : Option Value) (call : Overrides) (before after : List Rule) :
    (IsReordering before after →
      (∀ field, (validate subject after call).get? field = (validate subject before call).get? field) ∧
      Report.same (validate subject before call) (validate subject after call) = true) ∧
    validate subject (before ++ before) call = validate subject before call := by
  refine ⟨fun h => ?_, ?_⟩
  · have hentry : ∀ field, (validate subject after call).get? field = (validate subject before call).get? field := by
      intro field
      calc (validate subject after call).get? field
          = (validate subject (naming field after) call).get? field :=
            (get?_validate_naming subject after call field).symm
        _ = (validate subject (naming field before) call).get? field := by rw [naming_eq_of_isReordering h field]
        _ = (validate subject before call).get? field := get?_validate_naming subject before call field
    exact ⟨hentry, Report.same_of_get?_eq fun field => (hentry field).symm⟩
  · rw [validate_eq_ofList, validate_eq_ofList, List.flatMap_append, Table.ofList_append_self]

/-- The rule for `c` goes before the group, which shares `b` with the rule that stays behind it. -/
theorem validate_reordering_apart :
    let fails (target : Target) (text : String) : Rule :=
      (RuleWith.on target).addAll [.check "never" fun _ _ => false, .wording "never" (.fixed text)]
    let before : List Rule :=
      [fails (.group ["a", "b"]) "first", fails (.single "c") "other", fails (.single "b") "second"]
    let after : List Rule :=
      [fails (.single "c") "other", fails (.group ["a", "b"]) "first", fails (.single "b") "second"]
    let subject : Option Value := some (.object [("a", .null), ("b", .null), ("c", .null)])
    IsReordering before after ∧
      (validate subject before .unset).keys = ["a", "b", "c"] ∧ (validate subject after .unset).keys = ["c", "a", "b"] ∧
      (∀ field, (validate subject after .unset).get? field = (validate subject before .unset).get? field) ∧
      Report.same (validate subject before .unset) (validate subject after .unset) = true := by
  intro fails before after subject
  have hreordering : IsReordering before after := by
    refine ⟨Equiv.swap (0 : Fin 3) 1, fun i => ?_, by decide⟩
    match i with
    | 0 => rfl
    | 1 => rfl
    | 2 => rfl
  exact ⟨hreordering, by decide, by decide, (validate_reordering subject .unset before after).1 hreordering⟩

end FieldRules
