import FieldRules.Proofs.Findings
import FieldRules.Proofs.Grammar
import FieldRules.Proofs.Loading
import FieldRules.Proofs.Presence
/-!
# Causes — what the messages of written rules are about

A message is asked for under a name, and the name is the cause of what is wrong: `required` or `arrayMiss` where names
are absent, the name of a check where one fails (`causes`).  A rule that was read from a value has no checks besides
`len` and `empty`, so that four names are all that can be asked for, and each of the four has a default.  **No message
of a written rule is the fallback**: it is the text that is written for its cause, or else the default
(`isTextOf_message`).

Three tables have to agree for that: the checks that can be written, the parameters with a check of their own, and the
names with a default.
-/
namespace FieldRules

theorem Presence.judge_observe_mem (target : Target) (required : Bool) (subject : Option Value) :
    Presence.judge target required (target.observe subject) ∈
      [.present, .excused, .absent (Presence.reason target)] := by
  rw [Presence.judge_observe]
  split
  · simp
  split
  · simp
  split <;> simp

namespace RuleWith

/-! ## Causes -/

/-- The names under which messages are asked for when a value is judged, in order. -/
def causes (r : Rule) (required : Bool) (seen : Observed) : List String :=
  match Presence.judge r.target required seen with
  | .excused => []
  | .absent reason => [reason]
  | .present => r.failedNames seen

/-- **Every complaint has the message of its cause.** -/
theorem map_snd_complaints (r : Rule) (required : Bool) (seen : Observed) :
    (r.complaints required seen).map Prod.snd = (r.causes required seen).map fun c => r.message c seen := by
  unfold complaints causes
  cases Presence.judge r.target required seen with
  | excused => rfl
  | absent reason => rfl
  | present =>
    simp only [complaintsOf_listed, List.map_map]
    rfl

/-- The names under which `len` and `empty` can fail, one or both of them. -/
def parameterNames : List (List String) := [["len"], ["empty"], ["len", "empty"]]

theorem failedNames_mem_of_no_checks {r : Rule} (h : r.checks = ∅) (seen : Observed) :
    r.failedNames seen ∈ [] :: parameterNames := by
  rw [failedNames_of_no_checks h]
  split <;> split <;> decide

/-- What a rule without checks of its own can complain of: that names are absent, or of `len` and `empty`. -/
theorem complaints_of_no_checks {r : Rule} (h : r.checks = ∅) (required : Bool) (subject : Option Value) :
    let seen := r.target.observe subject
    let reason := Presence.reason r.target
    (r.causes required seen = [reason] ∧ r.complaints required seen = [("isRequired", r.message reason seen)]) ∨
    ∃ ks ∈ [] :: parameterNames,
      r.causes required seen = ks ∧ r.complaints required seen = ks.map fun k => (k, r.message k seen) := by
  intro seen reason
  have hpresence := Presence.judge_observe_mem r.target required subject
  simp only [List.mem_cons, List.not_mem_nil, or_false] at hpresence
  unfold causes complaints
  obtain hpresent | hexcused | habsent := hpresence
  · rw [hpresent]
    exact .inr ⟨r.failedNames seen, failedNames_mem_of_no_checks h seen, rfl, complaintsOf_listed r seen⟩
  · rw [hexcused]
    exact .inr ⟨[], List.mem_cons_self, rfl, rfl⟩
  · rw [habsent]
    exact .inl ⟨rfl, rfl⟩

/-! ## What is said of a cause -/

/-- The names with a default. -/
def wordedNames : List String := ["required", "arrayMiss", "len", "empty"]

theorem exists_default?_of_mem {check : String} (h : check ∈ wordedNames) (seen : Observed) (r : Rule) :
    ∃ standard, Wording.default? check seen r = some standard := by
  simp only [wordedNames, List.mem_cons, List.not_mem_nil, or_false] at h
  obtain rfl | rfl | rfl | rfl := h <;> exact ⟨_, rfl⟩

theorem of_mem_parameterNames :
    ∀ ks ∈ [] :: parameterNames, ∀ k ∈ ks, k ∈ ["len", "empty"] ∧ k ∈ wordedNames := by
  decide

theorem mem_wordedNames_reason (target : Target) : Presence.reason target ∈ wordedNames := by
  cases target <;> simp [Presence.reason, wordedNames]

/-- The message of a check, for a rule read from `w`: the text that is written for the check, or else the default of the
check, of which there is one. -/
def IsTextOf (w : Value) (r : Rule) (seen : Observed) (check text : String) : Prop :=
  ∃ standard, Wording.default? check seen r = some standard ∧ text = (writtenText? w check).getD standard

/-- **A message under one of the four names is never the fallback.** -/
theorem isTextOf_message {w : Value} {r : Rule} (h : ofValue w = .ok r) (seen : Observed) {check : String}
    (hcheck : check ∈ wordedNames) : IsTextOf w r seen check (r.message check seen) := by
  obtain ⟨standard, hstandard⟩ := exists_default?_of_mem hcheck seen r
  refine ⟨standard, hstandard, ?_⟩
  unfold message
  rw [get?_wordings_of_ofValue h, hstandard]
  cases writtenText? w check <;> rfl

end RuleWith

/-! ## What a failure is made of -/

namespace Failure

/-- Each message of the failure is one that `tells` has for a cause: for `reason`, which stands under `isRequired`, or
for `len` and `empty`, which stand under their own names. -/
def IsWorded (reason : String) (tells : String → String → Prop) : Failure → Prop
  | .bare message => ∃ c ∈ [reason, "len", "empty"], tells c message
  | .byCheck messages =>
    (∃ message, messages.entries = [("isRequired", message)] ∧ tells reason message) ∨
      messages.keys ∈ RuleWith.parameterNames ∧
        ∀ k message, messages.get? k = some message → tells k message

theorem isWorded_byCheck_map {reason : String} {tells : String → String → Prop} {f : String → String}
    {ks : List String} (hks : ks ∈ RuleWith.parameterNames) (htells : ∀ k ∈ ks, tells k (f k)) :
    IsWorded reason tells (.byCheck (.ofList (ks.map fun k => (k, f k)))) := by
  have hnodup : ∀ ks ∈ RuleWith.parameterNames, ks.eraseDups = ks := by decide
  refine .inr ⟨by rw [Table.keys_ofList_map, hnodup ks hks]; exact hks, fun k message hk => ?_⟩
  rw [Table.get?_ofList_map] at hk
  split at hk
  · rename_i hmem
    cases hk
    exact htells k hmem
  · cases hk

end Failure

namespace RuleWith

/-- **A written rule fails with worded messages.** -/
theorem isWorded_of_failure? {w : Value} {r : Rule} (h : ofValue w = .ok r) {subject : Option Value} {call : Overrides}
    {e : Failure} (he : r.failure? subject call = some e) :
    e.IsWorded (Presence.reason r.target) (IsTextOf w r (r.target.observe subject)) := by
  have htells : ∀ c ∈ wordedNames, IsTextOf w r (r.target.observe subject) c (r.message c (r.target.observe subject)) :=
    fun c hc => isTextOf_message h _ hc
  have hreason := htells _ (mem_wordedNames_reason r.target)
  -- the first of the failures alone is again one of the lists that can be reported
  have hfirst : ∀ ks ∈ [] :: parameterNames, ks ≠ [] → ks.take 1 ∈ parameterNames ∧ ks ∈ parameterNames := by decide
  rw [failure?, judge_eq_ofComplaints] at he
  have hcases := Failure.cases_of_ofComplaints he
  obtain ⟨-, hcs⟩ | ⟨ks, hks, -, hcs⟩ :=
    complaints_of_no_checks (checks_of_ofValue h) (Settings.settle r.flags call).required subject
  · rw [hcs] at hcases
    obtain ⟨c, hc, rfl⟩ | ⟨-, rfl | rfl⟩ := hcases
    · rw [List.mem_singleton.1 hc]
      exact ⟨_, List.mem_cons_self, hreason⟩
    · exact .inl ⟨_, rfl, hreason⟩
    · exact .inl ⟨_, rfl, hreason⟩
  · rw [hcs] at hcases
    have hworded : ∀ k ∈ ks, IsTextOf w r (r.target.observe subject) k (r.message k (r.target.observe subject)) :=
      fun k hk => htells k (of_mem_parameterNames ks hks k hk).2
    obtain ⟨c, hc, rfl⟩ | ⟨hne, rfl | rfl⟩ := hcases
    · obtain ⟨k, hk, rfl⟩ := List.mem_map.1 hc
      exact ⟨k, List.mem_cons_of_mem _ (of_mem_parameterNames ks hks k hk).1, hworded k hk⟩
    · have hks' := hfirst ks hks fun hnil => hne (by rw [hnil]; rfl)
      rw [← List.map_take]
      exact Failure.isWorded_byCheck_map hks'.1 fun k hk => hworded k (List.mem_of_mem_take hk)
    · have hks' := hfirst ks hks fun hnil => hne (by rw [hnil]; rfl)
      exact Failure.isWorded_byCheck_map hks'.2 hworded

theorem mem_wordedNames_of_mem_causes {r : Rule} (h : r.checks = ∅) {required : Bool} {subject : Option Value}
    {c : String} (hc : c ∈ r.causes required (r.target.observe subject)) : c ∈ wordedNames := by
  obtain ⟨hcauses, -⟩ | ⟨ks, hks, hcauses, -⟩ := complaints_of_no_checks h required subject
  · rw [hcauses, List.mem_singleton] at hc
    exact hc ▸ mem_wordedNames_reason r.target
  · rw [hcauses] at hc
    exact (of_mem_parameterNames ks hks c hc).2

end RuleWith

open RuleWith (ofValue listOfValue writtenIn IsTextOf wordedNames)

/-- **Written rules never fall back.**  Each entry of a report is what the last failing rule of its field found, and
that rule was read from the value in its place.  It is a bare message, or has `isRequired`, `len`, `empty` or the last
two for its checks; and each message is the text written for its cause, or else the default of the cause.  Whatever is
reported of a rule comes from its complaints, their messages are those of its causes, and every cause has a default:
none is left to the fallback, reported or not. -/
theorem written_rules_never_fall_back {v : Value} {rules : List Rule} (h : listOfValue v = .ok rules)
    (subject : Option Value) (call : Overrides) :
    (∀ field e, (validate subject rules call).get? field = some e →
      ∃ before r after w, rules = before ++ r :: after ∧ (writtenIn v)[before.length]? = some w ∧ ofValue w = .ok r ∧
        field ∈ r.target.names ∧ r.failure? subject call = some e ∧
        (∀ s ∈ after, field ∈ s.target.names → s.failure? subject call = none) ∧
        e.IsWorded (Presence.reason r.target) (IsTextOf w r (r.target.observe subject))) ∧
    ∀ r ∈ rules,
      let o := Settings.settle r.flags call
      let seen := r.target.observe subject
      r.failure? subject call = Failure.ofComplaints o (r.complaints o.required seen) ∧
      (r.complaints o.required seen).map Prod.snd = (r.causes o.required seen).map (fun c => r.message c seen) ∧
      ∀ c ∈ r.causes o.required seen, c ∈ wordedNames ∧ ∃ standard, Wording.default? c seen r = some standard := by
  refine ⟨fun field e he => ?_, fun r hr => ⟨RuleWith.judge_eq_ofComplaints r _ _, RuleWith.map_snd_complaints r _ _,
    fun c hc => ?_⟩⟩
  · obtain ⟨before, r, after, rfl, hname, hfail, hafter⟩ :=
      (get?_validate_eq_some_iff subject rules call field e).1 he
    have hread := RuleWith.map_ofValue_of_listOfValue h
    have hplace : ((writtenIn v).map ofValue)[before.length]? = some (.ok r : Except RuleFault Rule) := by
      rw [hread]
      simp
    obtain ⟨w, hw, hr⟩ := Option.map_eq_some_iff.1 ((List.getElem?_map ..).symm.trans hplace)
    exact ⟨before, r, after, w, rfl, hw, hr, hname, hfail, hafter, RuleWith.isWorded_of_failure? hr hfail⟩
  · obtain ⟨w, -, hread⟩ := RuleWith.exists_ofValue_of_mem h hr
    have hworded := RuleWith.mem_wordedNames_of_mem_causes (RuleWith.checks_of_ofValue hread) hc
    exact ⟨hworded, RuleWith.exists_default?_of_mem hworded _ r⟩

/-- A group with an absent name and a message for that, and a null that is neither long enough nor to be empty. -/
theorem written_rules_never_fall_back_null :
    let v : Value := .array [
      .object [("name", .array [.string "from", .string "to"]), ("msg", .object [("arrayMiss", .string "Both")])],
      .object [("name", .string "nick"), ("len", .string "4"), ("empty", .bool false), ("short", .bool false),
        ("findFirst", .bool false), ("msg", .object [("len", .string "Longer"), ("empty", .null)])]]
    let subject : Option Value := some (.object [("from", .bool true), ("nick", .null)])
    ∃ rules : List Rule, listOfValue v = .ok rules ∧
      (validate subject rules .unset).entries = [("from", .bare "Both"), ("to", .bare "Both"),
        ("nick", .byCheck (.ofList [("len", "Longer"), ("empty", "Is empty")]))] ∧
      (∀ entry ∈ (validate subject rules .unset).entries, ∃ (r : Rule) (w : Value), ofValue w = .ok r ∧
        entry.2.IsWorded (Presence.reason r.target) (IsTextOf w r (r.target.observe subject))) ∧
      ∀ r ∈ rules, ∀ c ∈ r.causes (Settings.settle r.flags .unset).required (r.target.observe subject),
        c ∈ wordedNames := by
  intro v subject
  have hread : ∃ rules : List Rule, listOfValue v = .ok rules := ⟨_, rfl⟩
  obtain ⟨rules, hrules⟩ := hread
  obtain ⟨hentry, hcause⟩ := written_rules_never_fall_back hrules subject .unset
  refine ⟨rules, hrules, ?_, fun entry he => ?_, fun r hr c hc => ((hcause r hr).2.2 c hc).1⟩
  · cases hrules
    decide
  · have hget := ((validate subject rules .unset).get?_eq_some_iff entry.1 entry.2).2 he
    obtain ⟨-, r, -, w, -, -, hr, -, -, -, hworded⟩ := hentry entry.1 entry.2 hget
    exact ⟨r, w, hr, hworded⟩

end FieldRules
