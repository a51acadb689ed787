import FieldRules.Validation
/-!
# Findings — a report as what the rules put down

A validation goes through the rules once, and each writes its failure under every name it aims at, on top of what
stands there.  The writes of one rule are its findings, and **a report is what the findings of all rules come to, from
the first rule to the last** (`validate_eq_ofList`).  A field then stands where a rule first failed on it
(`keys_validate`) and holds what the last such rule found (`get?_validate`).
-/
namespace FieldRules

namespace RuleWith

/-! ## One rule -/

/-- The failure under every name of the rule's target. -/
def findings (r : Rule) (subject : Option Value) (call : Overrides) : List (String × Failure) :=
  match r.failure? subject call with
  | none => []
  | some failure => r.target.names.map fun name => (name, failure)

def finding? (r : Rule) (subject : Option Value) (call : Overrides) (field : String) : Option Failure :=
  if field ∈ r.target.names then r.failure? subject call else none

/-- **A rule's turn is its findings, written down.** -/
theorem turn_eq_foldl (subject : Option Value) (call : Overrides) (report : Report) (r : Rule) :
    turn subject call report r = (r.findings subject call).foldl (fun t e => t.insert e.1 e.2) report := by
  unfold turn findings
  cases r.failure? subject call with
  | none => rfl
  | some failure => simp only [Report.record, List.foldl_map]

theorem map_fst_findings (r : Rule) (subject : Option Value) (call : Overrides) :
    (r.findings subject call).map Prod.fst = if (r.failure? subject call).isSome then r.target.names else [] := by
  unfold findings
  cases r.failure? subject call with
  | none => rfl
  | some failure =>
    rw [List.map_map]
    exact List.map_id' _

/-- A name may stand in a group more than once; all of its findings are the same. -/
theorem lookup_reverse_findings (r : Rule) (subject : Option Value) (call : Overrides) (field : String) :
    (r.findings subject call).reverse.lookup field = r.finding? subject call field := by
  unfold findings finding?
  cases r.failure? subject call with
  | none => simp
  | some failure =>
    simp only [← List.map_reverse, List.mem_reverse, Table.lookup_map_self fun _ => failure]

theorem finding?_eq_none_iff (r : Rule) (subject : Option Value) (call : Overrides) (field : String) :
    r.finding? subject call field = none ↔ (field ∈ r.target.names → r.failure? subject call = none) := by
  unfold finding?
  split <;> simp_all

theorem finding?_eq_some_iff (r : Rule) (subject : Option Value) (call : Overrides) (field : String) (e : Failure) :
    r.finding? subject call field = some e ↔ field ∈ r.target.names ∧ r.failure? subject call = some e := by
  unfold finding?
  split <;> simp_all

theorem turn_eq_self (subject : Option Value) (call : Overrides) (report : Report) (r : Rule)
    (h : ((r.failure? subject call).isSome && !r.target.names.isEmpty) = false) :
    turn subject call report r = report := by
  have hnone : r.findings subject call = [] := by
    rw [← List.map_eq_nil_iff (f := Prod.fst), map_fst_findings]
    cases hf : r.failure? subject call <;> simp_all
  rw [turn_eq_foldl, hnone]
  rfl

end RuleWith

/-! ## All of them -/

/-- **A report is what the findings of all rules come to.** -/
theorem validate_eq_ofList (subject : Option Value) (rules : List Rule) (call : Overrides) :
    validate subject rules call = Table.ofList (rules.flatMap fun r => r.findings subject call) := by
  have hturn : RuleWith.turn subject call
      = fun report r => (r.findings subject call).foldl (fun t e => t.insert e.1 e.2) report := by
    funext report r
    exact RuleWith.turn_eq_foldl subject call report r
  rw [validate, hturn, Table.ofList, List.foldl_flatMap]

/-- **The fields of a report are the names of the rules that fail**, each where it is first named. -/
theorem keys_validate (subject : Option Value) (rules : List Rule) (call : Overrides) :
    (validate subject rules call).keys =
      ((rules.filter fun r => (r.failure? subject call).isSome).flatMap fun r => r.target.names).eraseDups := by
  rw [validate_eq_ofList, Table.keys_ofList, List.map_flatMap]
  congr 1
  induction rules with
  | nil => rfl
  | cons r rules ih =>
    rw [List.flatMap_cons, ih, RuleWith.map_fst_findings, List.filter_cons]
    split <;> simp

/-- **A field holds the finding of the last rule that has one.** -/
theorem get?_validate (subject : Option Value) (rules : List Rule) (call : Overrides) (field : String) :
    (validate subject rules call).get? field = rules.reverse.findSome? fun r => r.finding? subject call field := by
  rw [validate_eq_ofList, Table.get?_ofList]
  induction rules with
  | nil => rfl
  | cons r rules ih =>
    rw [List.flatMap_cons, List.reverse_append, List.lookup_append, ih, RuleWith.lookup_reverse_findings,
      List.reverse_cons, List.findSome?_append]
    simp

theorem get?_validate_eq_none_iff (subject : Option Value) (rules : List Rule) (call : Overrides) (field : String) :
    (validate subject rules call).get? field = none ↔
      ∀ r ∈ rules, field ∈ r.target.names → r.failure? subject call = none := by
  simp only [get?_validate, List.findSome?_eq_none_iff, List.mem_reverse, RuleWith.finding?_eq_none_iff]

theorem get?_validate_eq_some_iff (subject : Option Value) (rules : List Rule) (call : Overrides) (field : String)
    (e : Failure) :
    (validate subject rules call).get? field = some e ↔
      ∃ before r after, rules = before ++ r :: after ∧
        field ∈ r.target.names ∧ r.failure? subject call = some e ∧
        ∀ s ∈ after, field ∈ s.target.names → s.failure? subject call = none := by
  rw [get?_validate, List.findSome?_eq_some_iff]
  constructor
  · rintro ⟨after, r, before, hsplit, hr, hafter⟩
    have hrules : rules = before.reverse ++ r :: after.reverse := by
      rw [← List.reverse_reverse rules, hsplit]
      simp
    obtain ⟨hname, hfail⟩ := (r.finding?_eq_some_iff subject call field e).1 hr
    refine ⟨before.reverse, r, after.reverse, hrules, hname, hfail, fun s hs => ?_⟩
    exact (s.finding?_eq_none_iff subject call field).1 (hafter s (List.mem_reverse.1 hs))
  · rintro ⟨before, r, after, rfl, hname, hfail, hafter⟩
    refine ⟨after.reverse, r, before.reverse, by simp, ?_, fun s hs => ?_⟩
    · exact (r.finding?_eq_some_iff subject call field e).2 ⟨hname, hfail⟩
    · exact (s.finding?_eq_none_iff subject call field).2 (hafter s (List.mem_reverse.1 hs))

/-- **Only rules that fail and have a name count.** -/
theorem validate_filter (subject : Option Value) (rules : List Rule) (call : Overrides) :
    validate subject (rules.filter fun r => (r.failure? subject call).isSome && !r.target.names.isEmpty) call =
      validate subject rules call := by
  rw [validate, validate, List.foldl_filter]
  congr 1
  funext report r
  split
  · rfl
  · rename_i h
    exact (RuleWith.turn_eq_self subject call report r (by simpa using h)).symm

theorem isEmpty_validate_iff (subject : Option Value) (rules : List Rule) (call : Overrides) :
    (validate subject rules call).isEmpty = true ↔
      ∀ r ∈ rules, r.target.names ≠ [] → r.failure? subject call = none := by
  simp only [Table.isEmpty_iff, get?_validate_eq_none_iff]
  constructor
  · intro h r hr hnames
    obtain ⟨name, hname⟩ := List.exists_mem_of_ne_nil _ hnames
    exact h name r hr hname
  · intro h field r hr hname
    exact h r hr (List.ne_nil_of_mem hname)

/-- **The closed form of a report.**  Its fields are the names of the rules that fail, each in the place of its first;
a field holds what the last of the rules that name it and fail has found, and is not there when none of them fails.
Rules that pass and rules without names count for nothing, so that the report is empty exactly when no rule with a name
fails. -/
theorem validate_closed_form (subject : Option Value) (rules : List Rule) (call : Overrides) :
    (validate subject rules call).keys =
      ((rules.filter fun r => (r.failure? subject call).isSome).flatMap fun r => r.target.names).eraseDups ∧
    (∀ field e, (validate subject rules call).get? field = some e ↔
      ∃ before r after, rules = before ++ r :: after ∧
        field ∈ r.target.names ∧ r.failure? subject call = some e ∧
        ∀ s ∈ after, field ∈ s.target.names → s.failure? subject call = none) ∧
    (∀ field, (validate subject rules call).get? field = none ↔
      ∀ r ∈ rules, field ∈ r.target.names → r.failure? subject call = none) ∧
    validate subject (rules.filter fun r => (r.failure? subject call).isSome && !r.target.names.isEmpty) call =
      validate subject rules call ∧
    ((validate subject rules call).isEmpty = true ↔
      ∀ r ∈ rules, r.target.names ≠ [] → r.failure? subject call = none) :=
  ⟨keys_validate subject rules call, get?_validate_eq_some_iff subject rules call,
    get?_validate_eq_none_iff subject rules call, validate_filter subject rules call,
    isEmpty_validate_iff subject rules call⟩

-- `b` stands where the group put it and holds what the second rule found; the last rule names it too and passes
example :
    let fails (target : Target) (text : String) : Rule :=
      (RuleWith.on target).addAll [.check "never" fun _ _ => false, .wording "never" (.fixed text)]
    let rules : List Rule := [fails (.group ["a", "b", "a"]) "first", fails (.single "c") "other",
      fails (.single "b") "second", fails (.group []) "nobody", RuleWith.on (.single "b")]
    let subject : Option Value := some (.object [("a", .null), ("b", .null), ("c", .null)])
    (validate subject rules .unset).entries = [("a", .bare "first"), ("b", .bare "second"), ("c", .bare "other")] := by
  decide

end FieldRules
