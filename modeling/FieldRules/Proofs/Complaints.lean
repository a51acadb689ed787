import FieldRules.Judgement
/-!
# Complaints — what a judgement comes to, whatever is reported of it

A judgement stops as soon as its settings let it.  Beside it stands the whole list of what is wrong with a value, check
by check with the message of each, that no setting cuts short (`complaints`): **a judgement reports the first message of
that list, the first complaint, or all of them by name** (`judge_eq_ofComplaints`).

A message depends on the name of its check and on nothing else of it (`complaints_eq_map`).  That is why checks of one
name can share an entry and nothing is lost, and why the first entry of a full report is what the shorter ones show.
-/
namespace FieldRules

namespace Failure

/-- **No complaint, no failure.**  Otherwise the first message when the report is short, the first complaint when one
is enough, and all of them by name otherwise. -/
def ofComplaints (o : Settings) : List (String × String) → Option Failure
  | [] => none
  | c :: rest =>
    some <|
      if o.short then .bare c.2
      else .byCheck (.ofList (if o.findFirst then [c] else c :: rest))

theorem ofComplaints_eq_none_iff (o : Settings) (cs : List (String × String)) :
    ofComplaints o cs = none ↔ cs = [] := by
  cases cs <;> simp [ofComplaints]

/-- Nothing is cut from a full report. -/
theorem ofComplaints_full_eq_some_iff (required : Bool) (cs : List (String × String)) (e : Failure) :
    ofComplaints ⟨required, false, false⟩ cs = some e ↔ cs ≠ [] ∧ e = .byCheck (.ofList cs) := by
  cases cs <;> simp [ofComplaints, eq_comm]

/-- A failure has the first of the complaints or all of them. -/
theorem cases_of_ofComplaints {o : Settings} {cs : List (String × String)} {e : Failure}
    (h : ofComplaints o cs = some e) :
    (∃ c ∈ cs, e = .bare c.2) ∨ cs ≠ [] ∧ (e = .byCheck (.ofList (cs.take 1)) ∨ e = .byCheck (.ofList cs)) := by
  cases cs with
  | nil => cases h
  | cons c cs =>
    rw [ofComplaints, Option.some.injEq] at h
    subst h
    split
    · exact .inl ⟨c, List.mem_cons_self, rfl⟩
    · refine .inr ⟨List.cons_ne_nil c cs, ?_⟩
      split
      · exact .inl rfl
      · exact .inr rfl

theorem collected_insert (t : Table String) (k m : String) :
    collected (t.insert k m) = some (.byCheck (t.insert k m)) := by
  simp [collected]

end Failure

/-- Presence leaves it to the checks unless the field is missing, or the rule is for a required group and one of the
slots is open. -/
theorem Presence.judge_eq_present_iff (target : Target) (required : Bool) (seen : Observed) :
    judge target required seen = .present ↔
      seen ≠ .missing ∧ ¬(required = true ∧ target.isGroup = true ∧ none ∈ seen.slots) := by
  have hany : seen.slots.any Option.isNone = true ↔ none ∈ seen.slots := by
    simp [List.any_eq_true]
  unfold judge
  cases seen with
  | missing => cases required <;> simp [Observed.isMissing]
  | single v => simp [Observed.isMissing, Observed.slots]
  | group slots =>
    rw [← hany]
    simp only [Observed.isMissing, Bool.false_eq_true, if_false, ← Bool.and_eq_true, ← Bool.and_assoc]
    split <;> simp_all

namespace RuleWith

/-- Presence leaves the value to the checks: it is not missing, and not a group with an open slot that is required. -/
def RunsChecks (r : Rule) (required : Bool) (seen : Observed) : Prop :=
  seen ≠ .missing ∧ ¬(required = true ∧ r.target.isGroup = true ∧ none ∈ seen.slots)

theorem runsChecks_iff (r : Rule) (required : Bool) (seen : Observed) :
    r.RunsChecks required seen ↔ Presence.judge r.target required seen = .present :=
  (Presence.judge_eq_present_iff r.target required seen).symm

/-! ## The whole list -/

def complaintsOf (r : Rule) (seen : Observed) (checks : List Check) : List (String × String) :=
  (checks.filter fun c => !c.passes seen r).map fun c => (c.name, r.message c.name seen)

/-- Everything that is wrong with the value, in order. -/
def complaints (r : Rule) (required : Bool) (seen : Observed) : List (String × String) :=
  match Presence.judge r.target required seen with
  | .excused => []
  | .absent reason => [(Presence.isRequired, r.message reason seen)]
  | .present => r.complaintsOf seen r.listed

theorem complaints_of_runsChecks {r : Rule} {required : Bool} {seen : Observed} (h : r.RunsChecks required seen) :
    r.complaints required seen = r.complaintsOf seen r.listed := by
  rw [complaints, (r.runsChecks_iff required seen).1 h]

theorem complaintsOf_cons (r : Rule) (seen : Observed) (c : Check) (rest : List Check) :
    r.complaintsOf seen (c :: rest) =
      if c.passes seen r then r.complaintsOf seen rest
      else (c.name, r.message c.name seen) :: r.complaintsOf seen rest := by
  unfold complaintsOf
  cases h : c.passes seen r <;> simp [h]

/-- **Complaints under one name say one thing.** -/
theorem complaints_eq_map (r : Rule) (required : Bool) (seen : Observed) :
    ∃ (f : String → String) (ks : List String), r.complaints required seen = ks.map fun k => (k, f k) := by
  unfold complaints
  cases Presence.judge r.target required seen with
  | excused => exact ⟨id, [], rfl⟩
  | absent reason => exact ⟨fun _ => r.message reason seen, [Presence.isRequired], rfl⟩
  | present =>
    refine ⟨fun k => r.message k seen, (r.listed.filter fun c => !c.passes seen r).map Check.name, ?_⟩
    rw [complaintsOf, List.map_map]
    rfl

/-! ## A judgement as a part of it -/

/-- **A run of checks reports the complaints it meets**, on top of the messages it starts from. -/
theorem run_eq (r : Rule) (seen : Observed) (o : Settings) :
    ∀ (checks : List Check) (messages : Table String),
      r.run seen o messages checks =
        match r.complaintsOf seen checks with
        | [] => Failure.collected messages
        | c :: rest => some <|
            if o.short then .bare c.2
            else .byCheck ((if o.findFirst then [c] else c :: rest).foldl (fun t e => t.insert e.1 e.2) messages)
  | [], messages => rfl
  | c :: checks, messages => by
    rw [run, complaintsOf_cons]
    by_cases hp : c.passes seen r = true
    · rw [if_pos hp, if_pos hp]
      exact run_eq r seen o checks messages
    rw [if_neg hp, if_neg hp]
    by_cases hs : o.short = true
    · simp [hs]
    by_cases hf : o.findFirst = true
    · simp [hs, hf, Failure.collected_insert]
    -- the message just collected keeps the report from being empty, whatever the rest of the run adds
    simp only [hs, hf, if_false, Bool.false_eq_true]
    rw [run_eq r seen o checks]
    cases r.complaintsOf seen checks with
    | nil => exact Failure.collected_insert messages _ _
    | cons d rest => simp [hs, hf]

/-- **A judgement is as much of the complaints as its settings ask for.** -/
theorem judge_eq_ofComplaints (r : Rule) (seen : Observed) (o : Settings) :
    r.judge seen o = Failure.ofComplaints o (r.complaints o.required seen) := by
  unfold judge complaints
  cases Presence.judge r.target o.required seen with
  | excused => rfl
  | absent reason =>
    simp only [absence, Failure.ofComplaints, ite_self]
  | present =>
    simp only [run_eq]
    cases r.complaintsOf seen r.listed <;> rfl

/-! ## The ways of reporting -/

/-- **However it is reported, it is the same judgement.**  A short report, a report of the first check and a full one
are all without failure when there is no complaint.  Otherwise they agree on the first complaint: the short one is its
message, the second has nothing else, and the full one begins with it, whatever else is collected under its name. -/
theorem judge_modes_agree (r : Rule) (seen : Observed) (required : Bool) :
    (r.complaints required seen = [] ∧
      (∀ findFirst, r.judge seen ⟨required, findFirst, true⟩ = none) ∧
      r.judge seen ⟨required, true, false⟩ = none ∧
      r.judge seen ⟨required, false, false⟩ = none) ∨
    ∃ k m, (r.complaints required seen).head? = some (k, m) ∧
      (∀ findFirst, r.judge seen ⟨required, findFirst, true⟩ = some (.bare m)) ∧
      (∃ t, r.judge seen ⟨required, true, false⟩ = some (.byCheck t) ∧ t.entries = [(k, m)]) ∧
      ∃ t, r.judge seen ⟨required, false, false⟩ = some (.byCheck t) ∧ t.entries.head? = some (k, m) := by
  obtain ⟨f, ks, hcs⟩ := complaints_eq_map r required seen
  simp only [judge_eq_ofComplaints]
  cases ks with
  | nil =>
    left
    rw [hcs]
    exact ⟨rfl, fun _ => rfl, rfl, rfl⟩
  | cons k ks =>
    right
    refine ⟨k, f k, by rw [hcs]; rfl, fun findFirst => ?_, ?_, ?_⟩
    · rw [hcs]; rfl
    · rw [hcs]; exact ⟨_, rfl, rfl⟩
    · refine ⟨.ofList ((k :: ks).map fun k => (k, f k)), by rw [hcs]; rfl, ?_⟩
      -- a later complaint under the name `k` writes the message that is there already
      rw [Table.entries_ofList_map, List.eraseDups_cons]
      rfl

/-! ## The full report -/

/-- The names of the checks that the value does not pass: `len` and `empty` where the rule sets them, then the rule's
own in the order they were first added. -/
def failedNames (r : Rule) (seen : Observed) : List String :=
  (if r.len.isSome && !Parameter.len.passes seen r then ["len"] else [])
    ++ (if r.empty.isSome && !Parameter.empty.passes seen r then ["empty"] else [])
    ++ (r.checks.entries.filter fun e => !e.2 seen r.outline).map Prod.fst

theorem complaintsOf_listed (r : Rule) (seen : Observed) :
    r.complaintsOf seen r.listed = (r.failedNames seen).map fun k => (k, r.message k seen) := by
  have hown : ((r.checks.entries.map fun e => Check.own e.1 e.2).filter fun c => !c.passes seen r)
      = (r.checks.entries.filter fun e => !e.2 seen r.outline).map fun e => Check.own e.1 e.2 := by
    rw [List.filter_map]
    rfl
  have hset : ((Parameter.all.filter (Parameter.isSet r)).map Check.parameter).filter (fun c => !c.passes seen r)
      = (if r.len.isSome && !Parameter.len.passes seen r then [Check.parameter .len] else [])
        ++ (if r.empty.isSome && !Parameter.empty.passes seen r then [Check.parameter .empty] else []) := by
    rw [List.filter_map, List.filter_filter]
    simp only [Parameter.all, List.filter_cons, List.filter_nil, Parameter.isSet, Function.comp_apply, Check.passes,
      Bool.and_comm]
    split <;> split <;> rfl
  unfold complaintsOf listed failedNames
  rw [List.filter_append, hown, hset]
  simp only [List.map_append, List.map_map]
  split <;> split <;> rfl

theorem failedNames_eq_nil_iff (r : Rule) (seen : Observed) :
    r.failedNames seen = [] ↔
      (r.len.isSome = true → Parameter.len.passes seen r = true) ∧
      (r.empty.isSome = true → Parameter.empty.passes seen r = true) ∧
      ∀ e ∈ r.checks.entries, e.2 seen r.outline = true := by
  simp only [failedNames, List.append_eq_nil_iff, List.map_eq_nil_iff, List.filter_eq_nil_iff, and_assoc]
  simp

theorem failedNames_of_no_checks {r : Rule} (h : r.checks = ∅) (seen : Observed) :
    r.failedNames seen =
      (if r.len.isSome && !Parameter.len.passes seen r then ["len"] else [])
        ++ (if r.empty.isSome && !Parameter.empty.passes seen r then ["empty"] else []) := by
  have hown : (r.checks.entries.filter fun e => !e.2 seen r.outline).map Prod.fst = [] := by
    rw [h]
    rfl
  rw [failedNames, hown, List.append_nil]

/-- **The name of a parameter that is not set fails only as a check of the rule's own.** -/
theorem own_of_mem_failedNames (r : Rule) (seen : Observed) (p : Parameter) (hset : p.isSet r = false)
    (hp : p.name ∈ r.failedNames seen) :
    ∃ e ∈ r.checks.entries, e.1 = p.name ∧ e.2 seen r.outline = false := by
  have hown : p.name ∈ (r.checks.entries.filter fun e => !e.2 seen r.outline).map Prod.fst := by
    cases p with
    | len =>
      have hlen : r.len.isSome = false := hset
      simpa [failedNames, hlen, Parameter.name] using hp
    | empty =>
      have hempty : r.empty.isSome = false := hset
      simpa [failedNames, hempty, Parameter.name] using hp
  obtain ⟨e, he, hname⟩ := List.mem_map.1 hown
  obtain ⟨he, hfails⟩ := List.mem_filter.1 he
  exact ⟨e, he, hname, by simpa using hfails⟩

/-- **A full report loses nothing and invents nothing.**  Unless presence decides, there is no failure exactly when
every check passes; otherwise the report has the names of the checks that fail, each where it fails first, with the
message of that name. -/
theorem judge_full (r : Rule) (seen : Observed) (required : Bool) (hruns : r.RunsChecks required seen) :
    (r.judge seen ⟨required, false, false⟩ = none ↔
      (r.len.isSome = true → Parameter.len.passes seen r = true) ∧
      (r.empty.isSome = true → Parameter.empty.passes seen r = true) ∧
      ∀ e ∈ r.checks.entries, e.2 seen r.outline = true) ∧
    ∀ e, r.judge seen ⟨required, false, false⟩ = some e →
      ∃ t, e = .byCheck t ∧ t.keys = (r.failedNames seen).eraseDups ∧
        (∀ c ∈ t.keys, t.get? c = some (r.message c seen)) ∧
        ∀ p : Parameter, p.isSet r = false → p.name ∈ t.keys →
          ∃ e ∈ r.checks.entries, e.1 = p.name ∧ e.2 seen r.outline = false := by
  rw [judge_eq_ofComplaints, complaints_of_runsChecks hruns, complaintsOf_listed]
  constructor
  · rw [Failure.ofComplaints_eq_none_iff, List.map_eq_nil_iff, failedNames_eq_nil_iff]
  · intro e he
    obtain ⟨-, rfl⟩ := (Failure.ofComplaints_full_eq_some_iff required _ e).1 he
    have hkeys := Table.keys_ofList_map (r.message · seen) (r.failedNames seen)
    refine ⟨_, rfl, hkeys, fun c hc => ?_, fun p hset hp => ?_⟩
    · rw [hkeys, List.mem_eraseDups] at hc
      rw [Table.get?_ofList_map (r.message · seen), if_pos hc]
    · rw [hkeys, List.mem_eraseDups] at hp
      exact own_of_mem_failedNames r seen p hset hp

/-- Two checks named `len` fail and share an entry; `empty` is not set, and stands for a check of the rule's own. -/
theorem judge_full_shared_name :
    let r : Rule := (RuleWith.on (.single "nick")).addAll [.check "empty" fun _ _ => false,
      .check "fine" fun _ _ => true, .check "len" fun _ _ => false, .len (.atLeast 10)]
    let seen : Observed := .single (.string "5text")
    r.RunsChecks true seen ∧
      ∃ t, r.judge seen ⟨true, false, false⟩ = some (.byCheck t) ∧ t.keys = ["len", "empty"] ∧
        ∀ c ∈ t.keys, t.get? c = some (r.message c seen) := by
  intro r seen
  have hruns : r.RunsChecks true seen := ⟨Observed.noConfusion, fun h => Bool.noConfusion h.2.1⟩
  have hnames : r.failedNames seen = ["len", "empty", "len"] := by decide
  obtain ⟨hnone, hsome⟩ := judge_full r seen true hruns
  refine ⟨hruns, ?_⟩
  cases hj : r.judge seen ⟨true, false, false⟩ with
  | none => exact absurd ((hnone.1 hj).1 rfl) (by decide)
  | some e =>
    obtain ⟨t, rfl, hkeys, hget, -⟩ := hsome e hj
    exact ⟨t, rfl, by rw [hkeys, hnames]; decide, hget⟩

end RuleWith
end FieldRules
