import FieldRules.Proofs.Answers
import FieldRules.Proofs.Tables
/-!
# Additions — a rule with one check more

A new check is run last.  All that was wrong with a value before is wrong with it still, in the same words and in the
same place, as long as the other bodies do not mind the newcomer; and **the newcomer adds one complaint at most, at the
end** (`complaints_add_check_of_fails`, `complaints_add_check_of_not_fails`).  So a value that failed fails again, a
report that stops at its first complaint does not change, and a full one is only made longer, by one entry if the name
is new to it.
-/
namespace FieldRules

namespace Failure

theorem eq_of_collected_eq_some {t t' : Table String} (h : collected t = some (.byCheck t')) : t = t' := by
  rw [collected] at h
  split at h
  · cases h
  · cases h
    rfl

/-- In a full report the complaints are collected by name. -/
theorem ofComplaints_full {o : Settings} (hshort : o.short = false) (hfirst : o.findFirst = false)
    (cs : List (String × String)) : ofComplaints o cs = collected (.ofList cs) := by
  rw [collected, Table.isEmpty_ofList]
  cases cs with
  | nil => rfl
  | cons c cs => simp [ofComplaints, hshort, hfirst]

/-- **A report that stops at the first complaint does not look further.** -/
theorem ofComplaints_append_of_ne_nil {o : Settings} (hstop : o.short = true ∨ o.findFirst = true)
    {cs : List (String × String)} (hcs : cs ≠ []) (ds : List (String × String)) :
    ofComplaints o (cs ++ ds) = ofComplaints o cs := by
  cases cs with
  | nil => exact absurd rfl hcs
  | cons c cs =>
    rw [List.cons_append, ofComplaints, ofComplaints]
    obtain hshort | hfirst := hstop
    · simp [hshort]
    · simp [hfirst]

theorem isSome_ofComplaints (o : Settings) (cs : List (String × String)) :
    (ofComplaints o cs).isSome = true ↔ cs ≠ [] := by
  rw [← Option.ne_none_iff_isSome, Ne, ofComplaints_eq_none_iff]

end Failure

namespace RuleWith

section NewCheck

variable {r : Rule} {name : String} {p : Predicate} {seen : Observed}

theorem listed_add_check (hname : name ∉ r.checks.keys) (p : Predicate) :
    (r.add (.check name p)).listed = r.listed ++ [.own name p] := by
  have hentries : (r.add (.check name p)).checks.entries = r.checks.entries ++ [(name, p)] :=
    Table.entries_insert_of_not_mem hname p
  rw [listed, hentries, List.map_append, ← List.append_assoc]
  rfl

theorem complaintsOf_append (r : Rule) (seen : Observed) (l m : List Check) :
    r.complaintsOf seen (l ++ m) = r.complaintsOf seen l ++ r.complaintsOf seen m := by
  rw [complaintsOf, List.filter_append, List.map_append]
  rfl

theorem sameFrame_add_check (r : Rule) (name : String) (p : Predicate) : r.SameFrame (r.add (.check name p)) :=
  ⟨rfl, rfl, rfl⟩

section Answers

variable (hchecks : r.ChecksAnswerOn (r.add (.check name p)).outline seen)
  (hphrases : ∀ check, r.PhraseAnswersOn (r.add (.check name p)).outline seen check)

include hphrases in
theorem message_add_check (check : String) : (r.add (.check name p)).message check seen = r.message check seen :=
  message_eq_of_answers (sameFrame_add_check r name p) rfl (hphrases check)

include hchecks hphrases

/-- **If the checks are run, the newcomer is the last of them.** -/
theorem complaints_add_check_of_runsChecks (hname : name ∉ r.checks.keys) {required : Bool}
    (hruns : r.RunsChecks required seen) :
    (r.add (.check name p)).complaints required seen =
      r.complaints required seen ++ (r.add (.check name p)).complaintsOf seen [.own name p] := by
  have hruns' : (r.add (.check name p)).RunsChecks required seen := hruns
  have hold : (r.add (.check name p)).complaintsOf seen r.listed = r.complaintsOf seen r.listed :=
    complaintsOf_eq_of_answers (sameFrame_add_check r name p) (fun _ => rfl) hchecks hphrases
  rw [complaints_of_runsChecks hruns', complaints_of_runsChecks hruns, listed_add_check hname, complaintsOf_append, hold]

theorem complaints_add_check_of_fails (hname : name ∉ r.checks.keys) {required : Bool}
    (hruns : r.RunsChecks required seen) (hfails : p seen (r.add (.check name p)).outline = false) :
    (r.add (.check name p)).complaints required seen =
      r.complaints required seen ++ [(name, (r.add (.check name p)).message name seen)] := by
  rw [complaints_add_check_of_runsChecks hchecks hphrases hname hruns, complaintsOf_cons, Check.passes, hfails]
  rfl

/-- **A check that passes, or that is not run, is not heard of.** -/
theorem complaints_add_check_of_not_fails (hname : name ∉ r.checks.keys) {required : Bool}
    (h : ¬(r.RunsChecks required seen ∧ p seen (r.add (.check name p)).outline = false)) :
    (r.add (.check name p)).complaints required seen = r.complaints required seen := by
  by_cases hruns : r.RunsChecks required seen
  · have hpasses : p seen (r.add (.check name p)).outline = true := by
      rw [← Bool.not_eq_false]
      exact fun hfails => h ⟨hruns, hfails⟩
    have hnew : (r.add (.check name p)).complaintsOf seen [.own name p] = [] := by
      rw [complaintsOf_cons, Check.passes, hpasses]
      rfl
    rw [complaints_add_check_of_runsChecks hchecks hphrases hname hruns, hnew, List.append_nil]
  · unfold complaints
    rw [target_add]
    cases hpresence : Presence.judge r.target required seen with
    | present => exact absurd ((r.runsChecks_iff required seen).2 hpresence) hruns
    | excused => rfl
    | absent reason => simp only [message_add_check hphrases reason]

/-- **A full report is made longer by the newcomer or left as it was.**  Under a name that failed before, the newcomer
says what stands there already. -/
theorem ofList_complaints_add_check (hname : name ∉ r.checks.keys) (required : Bool) :
    let r' := r.add (.check name p)
    let t := Table.ofList (r.complaints required seen)
    let t' := Table.ofList (r'.complaints required seen)
    let fails := r.RunsChecks required seen ∧ p seen r'.outline = false
    (fails → name ∉ t.keys → t'.entries = t.entries ++ [(name, r'.message name seen)]) ∧
    (¬(fails ∧ name ∉ t.keys) → t' = t) := by
  intro r' t t' fails
  have hinsert : fails → t' = t.insert name (r'.message name seen) := by
    rintro ⟨hruns, hfails⟩
    rw [← Table.ofList_append_singleton, ← complaints_add_check_of_fails hchecks hphrases hname hruns hfails]
  refine ⟨fun hfails hnew => ?_, fun hsame => ?_⟩
  · rw [hinsert hfails, Table.entries_insert_of_not_mem hnew]
  by_cases hfails : fails
  · -- a message is found by name and value alone, so the entry that stands there is the one that is written
    have hold : name ∈ t.keys := Classical.byContradiction fun hnew => hsame ⟨hfails, hnew⟩
    have hget : t.get? name = some (r'.message name seen) := by
      have hcs : r.complaints required seen = (r.failedNames seen).map fun k => (k, r.message k seen) := by
        rw [complaints_of_runsChecks hfails.1, complaintsOf_listed]
      simp only [t, hcs] at hold ⊢
      rw [Table.keys_ofList_map (r.message · seen), List.mem_eraseDups] at hold
      rw [Table.get?_ofList_map (r.message · seen), if_pos hold, message_add_check hphrases]
    rw [hinsert hfails, Table.insert_eq_self hget]
  · simp only [t, t', r', complaints_add_check_of_not_fails hchecks hphrases hname hfails]

end Answers

end NewCheck

/-- **One check more makes a rule no milder.**  Suppose that the name is no check of the rule's own yet, and that the
bodies of the rule answer as they did.  Then what failed fails still, and it fails with what it failed with if presence
decides or if one failure is enough.  A full report keeps its entries as they stand; behind them comes the newcomer with
its message, if the checks are run, it fails and its name is not among them.  And a value that passed now fails exactly
if the checks are run and the newcomer fails. -/
theorem judge_add_check (r : Rule) (name : String) (p : Predicate) (seen : Observed) (o : Settings)
    (hname : name ∉ r.checks.keys) (hchecks : r.ChecksAnswerOn (r.add (.check name p)).outline seen)
    (hphrases : ∀ check, r.PhraseAnswersOn (r.add (.check name p)).outline seen check) :
    let r' := r.add (.check name p)
    let fails := r.RunsChecks o.required seen ∧ p seen r'.outline = false
    ((r.judge seen o).isSome = true → (r'.judge seen o).isSome = true) ∧
    (¬r.RunsChecks o.required seen → r'.judge seen o = r.judge seen o) ∧
    (o.short = true ∨ o.findFirst = true → (r.judge seen o).isSome = true → r'.judge seen o = r.judge seen o) ∧
    (o.short = false → o.findFirst = false → ∃ t t' : Table String,
      r.judge seen o = Failure.collected t ∧ r'.judge seen o = Failure.collected t' ∧
      (fails → name ∉ t.keys → t'.entries = t.entries ++ [(name, r'.message name seen)]) ∧
      (¬(fails ∧ name ∉ t.keys) → t' = t)) ∧
    (r.judge seen o = none → ((r'.judge seen o).isSome = true ↔ fails)) := by
  intro r' fails
  simp only [judge_eq_ofComplaints, Failure.isSome_ofComplaints, Failure.ofComplaints_eq_none_iff]
  have hadded : fails →
      r'.complaints o.required seen = r.complaints o.required seen ++ [(name, r'.message name seen)] :=
    fun hfails => complaints_add_check_of_fails hchecks hphrases hname hfails.1 hfails.2
  have hkept : ¬fails → r'.complaints o.required seen = r.complaints o.required seen :=
    complaints_add_check_of_not_fails hchecks hphrases hname
  refine ⟨fun hne => ?_, fun hruns => ?_, fun hstop hne => ?_, fun hshort hfirst => ?_, fun hnil => ?_⟩
  · by_cases hfails : fails
    · rw [hadded hfails]
      exact List.append_ne_nil_of_left_ne_nil hne _
    · rwa [hkept hfails]
  · rw [hkept fun hfails => hruns hfails.1]
  · by_cases hfails : fails
    · rw [hadded hfails, Failure.ofComplaints_append_of_ne_nil hstop hne]
    · rw [hkept hfails]
  · exact ⟨_, _, Failure.ofComplaints_full hshort hfirst _, Failure.ofComplaints_full hshort hfirst _,
      ofList_complaints_add_check hchecks hphrases hname o.required⟩
  · by_cases hfails : fails
    · simp [hadded hfails, hfails]
    · simp [hkept hfails, hnil, hfails]

/-- The nickname is too short and another check of the rule fails with it.  A newcomer called `len` fails under the name
of the first and is not heard of; under a name of its own it is told last, in the rule's wording. -/
theorem judge_add_check_shared_name :
    let r : Rule := (on (.single "nick")).addAll [.len (.atLeast 10), .check "loose" fun _ outline => outline.len.isNone,
      .wording "never" (.computed fun _ outline => outline.target.text)]
    let never : Predicate := fun _ _ => false
    let seen : Observed := .single (.string "3xt")
    let full : Settings := ⟨true, false, false⟩
    (∀ name ∈ ["len", "never"], name ∉ r.checks.keys ∧ r.ChecksAnswerOn (r.add (.check name never)).outline seen ∧
      ∀ check, r.PhraseAnswersOn (r.add (.check name never)).outline seen check) ∧
      (r.add (.check "len" never)).judge seen full = r.judge seen full ∧
      ∃ t t', r.judge seen full = some (.byCheck t) ∧ t.keys = ["len", "loose"] ∧
        (r.add (.check "never" never)).judge seen full = some (.byCheck t') ∧
        t'.entries = t.entries ++ [("never", "nick")] := by
  intro r never seen full
  have hnames : ∀ name ∈ ["len", "never"], name ∉ r.checks.keys := by decide
  have hchecks : ∀ name, r.ChecksAnswerOn (r.add (.check name never)).outline seen := by
    intro name e he
    obtain rfl := List.mem_singleton.1 he
    rfl
  have hphrases : ∀ name check, r.PhraseAnswersOn (r.add (.check name never)).outline seen check := by
    intro name check body hw
    cases List.mem_singleton.1 ((r.wordings.get?_eq_some_iff check (.computed body)).1 hw)
    rfl
  have hruns : r.RunsChecks full.required seen := ⟨Observed.noConfusion, fun h => Bool.noConfusion h.2.1⟩
  obtain ⟨-, -, -, hlen, -⟩ := judge_add_check r "len" never seen full (hnames _ (by simp)) (hchecks _) (hphrases _)
  obtain ⟨-, -, -, hnever, -⟩ := judge_add_check r "never" never seen full (hnames _ (by simp)) (hchecks _) (hphrases _)
  obtain ⟨t, t₁, hjudge, hjudge₁, -, hsame⟩ := hlen rfl rfl
  obtain ⟨t₀, t₂, hjudge₀, hjudge₂, hlonger, -⟩ := hnever rfl rfl
  obtain ⟨told, htold, hkeys⟩ : ∃ told, r.judge seen full = some (.byCheck told) ∧ told.keys = ["len", "loose"] :=
    ⟨.ofList (r.complaints true seen), by decide +kernel, by decide +kernel⟩
  obtain rfl : t = told := Failure.eq_of_collected_eq_some (hjudge ▸ htold)
  obtain rfl : t₀ = t := Failure.eq_of_collected_eq_some (hjudge₀ ▸ htold)
  have hnew : "never" ∉ t₀.keys := by rw [hkeys]; decide
  have hentries := hlonger ⟨hruns, rfl⟩ hnew
  have hnonempty : t₂.isEmpty = false := by simp [Table.isEmpty, hentries]
  refine ⟨fun name hname => ⟨hnames name hname, hchecks name, hphrases name⟩, ?_, t₀, t₂, htold, hkeys, ?_, hentries⟩
  · rw [hjudge₁, hjudge, hsame fun h => h.2 (by rw [hkeys]; decide)]
  · rw [hjudge₂, Failure.collected, hnonempty]
    rfl

end RuleWith
end FieldRules
