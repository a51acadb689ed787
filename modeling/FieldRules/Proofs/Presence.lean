import FieldRules.Proofs.Complaints
import FieldRules.Validation
/-!
# Presence — rules against subjects that lack some of their fields

What a rule sees is looked up in the subject by name, so that what is missing can be said of the subject alone: the
names of the target that are no key of it, in the order of the target (`absentFrom`).  A key that holds null is a key.

**Absent names decide before any check does** (`failure?_presence_first`): they fail a required rule, and they excuse a
field of its own from one that is not required.  A group that is not required is left to its checks all the same.
-/
namespace FieldRules

/-! ## What is absent -/

/-- The names of a subject's members.  A subject that is absent or is no object has none. -/
def keysOf : Option Value → List String
  | some (.object ms) => ms.map Prod.fst
  | _ => []

theorem lookUp_eq_none_iff (subject : Option Value) (name : String) :
    lookUp subject name = none ↔ name ∉ keysOf subject := by
  cases subject with
  | none => simp [lookUp, keysOf]
  | some v =>
    cases v with
    | object ms =>
      rw [lookUp, Option.bind_some, Value.get?, Table.lookup_eq_none_iff_not_mem, List.map_reverse, List.mem_reverse,
        keysOf]
    | _ => simp [lookUp, keysOf, Value.get?]

namespace Target

def absentFrom (target : Target) (subject : Option Value) : List String :=
  target.names.filter fun name => !(keysOf subject).contains name

theorem absentFrom_eq (target : Target) (subject : Option Value) :
    target.absentFrom subject = target.names.filter fun name => (lookUp subject name).isNone := by
  refine List.filter_congr fun name _ => Bool.eq_iff_iff.2 ?_
  rw [Option.isNone_iff_eq_none, lookUp_eq_none_iff]
  simp

theorem absentFrom_ne_nil_iff (target : Target) (subject : Option Value) :
    target.absentFrom subject ≠ [] ↔ ∃ name ∈ target.names, lookUp subject name = none := by
  rw [absentFrom_eq, Ne, List.filter_eq_nil_iff]
  simp

theorem observe_eq_missing_iff (target : Target) (subject : Option Value) :
    target.observe subject = .missing ↔ target.isGroup = false ∧ target.absentFrom subject ≠ [] := by
  rw [absentFrom_ne_nil_iff]
  cases target with
  | single name =>
    rw [observe]
    cases h : lookUp subject name <;> simp [isGroup, names, h]
  | group names => simp [observe, isGroup]

/-- **A group has an open slot for every absent name.** -/
theorem none_mem_slots_observe_iff (target : Target) (subject : Option Value) :
    none ∈ (target.observe subject).slots ↔ target.isGroup = true ∧ target.absentFrom subject ≠ [] := by
  rw [absentFrom_ne_nil_iff]
  cases target with
  | single name =>
    rw [observe]
    cases lookUp subject name <;> simp [isGroup, Observed.slots]
  | group names => simp [observe, isGroup, Observed.slots, Target.names]

/-- The slots of a group stand beside its names, one for each. -/
theorem absentNames_observe (names : List String) (subject : Option Value) :
    Wording.absentNames (.group names) (Target.observe (.group names) subject)
      = (Target.group names).absentFrom subject := by
  rw [absentFrom_eq, Wording.absentNames, observe, Observed.slots, Target.names]
  induction names with
  | nil => rfl
  | cons name names ih =>
    rw [List.map_cons, List.zip_cons_cons, List.filter_cons, List.filter_cons]
    cases lookUp subject name <;> simp [ih]

end Target

/-! ## What presence decides -/

def Presence.reason : Target → String
  | .single _ => "required"
  | .group _ => "arrayMiss"

/-- **Presence, said of the subject.** -/
theorem Presence.judge_observe (target : Target) (required : Bool) (subject : Option Value) :
    judge target required (target.observe subject) =
      if target.absentFrom subject = [] then .present
      else if required then .absent (reason target)
      else if target.isGroup then .present
      else .excused := by
  by_cases habsent : target.absentFrom subject = []
  · rw [if_pos habsent, judge_eq_present_iff]
    exact ⟨fun h => ((target.observe_eq_missing_iff subject).1 h).2 habsent,
      fun h => ((target.none_mem_slots_observe_iff subject).1 h.2.2).2 habsent⟩
  rw [if_neg habsent]
  cases target with
  | single name =>
    rw [(Target.observe_eq_missing_iff (.single name) subject).2 ⟨rfl, habsent⟩]
    cases required <;> rfl
  | group names =>
    have hopen : ((Target.group names).observe subject).slots.any Option.isNone = true :=
      List.any_eq_true.2 ⟨none, (Target.none_mem_slots_observe_iff (.group names) subject).2 ⟨rfl, habsent⟩, rfl⟩
    unfold judge
    rw [hopen]
    cases required <;> rfl

namespace RuleWith

/-- What is said when names of the target are absent: the rule's own wording under `required` or, for a group, under
`arrayMiss`; without one, that the field is required, or which of the group's fields are. -/
def absenceText (r : Rule) (subject : Option Value) : String :=
  match r.target with
  | .single _ =>
    match r.wordings.get? "required" with
    | some w => w.render (r.target.observe subject) r.outline
    | none => "Is required"
  | .group _ =>
    match r.wordings.get? "arrayMiss" with
    | some w => w.render (r.target.observe subject) r.outline
    | none => "Is required [" ++ ",".intercalate (r.target.absentFrom subject) ++ "]"

theorem message_reason (r : Rule) (subject : Option Value) :
    r.message (Presence.reason r.target) (r.target.observe subject) = r.absenceText subject := by
  unfold absenceText message
  cases ht : r.target with
  | single name =>
    simp only [Presence.reason]
    cases r.wordings.get? "required" <;> rfl
  | group names =>
    have harray : Wording.default? "arrayMiss" ((Target.group names).observe subject) r
        = some ("Is required [" ++ ",".intercalate ((Target.group names).absentFrom subject) ++ "]") := by
      rw [← Target.absentNames_observe, ← ht]
      rfl
    simp only [Presence.reason, harray]
    cases r.wordings.get? "arrayMiss" <;> rfl

theorem complaints_observe (r : Rule) (required : Bool) (subject : Option Value) :
    r.complaints required (r.target.observe subject) =
      if r.target.absentFrom subject = [] then r.complaintsOf (r.target.observe subject) r.listed
      else if required then [("isRequired", r.absenceText subject)]
      else if r.target.isGroup then r.complaintsOf (r.target.observe subject) r.listed
      else [] := by
  rw [complaints, Presence.judge_observe, ← message_reason]
  by_cases habsent : r.target.absentFrom subject = []
  · rw [if_pos habsent, if_pos habsent]
  · rw [if_neg habsent, if_neg habsent]
    cases required with
    | true => rfl
    | false => cases r.target.isGroup <;> rfl

/-- **Presence decides first.**  A required rule fails when names of its target are absent from the subject, with one
message whatever its checks are; a rule for a field of its own that is not required then passes, whatever its checks
are.  In every other case the checks decide, and a group has them run on one slot for each of its names. -/
theorem failure?_presence_first (r : Rule) (subject : Option Value) (call : Overrides) :
    let o := Settings.settle r.flags call
    let seen := r.target.observe subject
    let absent := r.target.absentFrom subject
    (o.required = true → absent ≠ [] →
      (o.short = true → r.failure? subject call = some (.bare (r.absenceText subject))) ∧
      (o.short = false → ∃ t, r.failure? subject call = some (.byCheck t) ∧
        t.entries = [("isRequired", r.absenceText subject)])) ∧
    (o.required = false → r.target.isGroup = false → absent ≠ [] → r.failure? subject call = none) ∧
    (absent = [] ∨ o.required = false ∧ r.target.isGroup = true →
      r.failure? subject call = Failure.ofComplaints o ((r.failedNames seen).map fun k => (k, r.message k seen))) ∧
    ∀ names : List String, r.target = .group names →
      ∃ slots : List (Option Value), seen = .group slots ∧ slots.length = names.length ∧
        ∀ (i : Nat) (name : String), names[i]? = some name → slots[i]? = some (lookUp subject name) := by
  intro o seen absent
  have hfailure : r.failure? subject call = Failure.ofComplaints o (r.complaints o.required seen) :=
    judge_eq_ofComplaints r seen o
  rw [hfailure, complaints_observe, ← complaintsOf_listed]
  refine ⟨fun hreq habsent => ?_, fun hreq hsingle habsent => ?_, ?_, fun names ht => ?_⟩
  · rw [if_neg habsent, if_pos hreq]
    refine ⟨fun hshort => ?_, fun hfull => ?_⟩
    · simp [Failure.ofComplaints, hshort]
    · exact ⟨.ofList [("isRequired", r.absenceText subject)], by simp [Failure.ofComplaints, hfull], rfl⟩
  · rw [if_neg habsent, hreq, hsingle]
    rfl
  · rintro (habsent | ⟨hreq, hgroup⟩)
    · rw [if_pos habsent]
    · rw [hreq, hgroup]
      simp only [Bool.false_eq_true, if_false, if_true, ite_self]
      rfl
  · refine ⟨names.map (lookUp subject), ?_, List.length_map _, fun i name hname => ?_⟩
    · simp only [seen, ht, Target.observe]
    · rw [List.getElem?_map, hname]
      rfl

/-- Two names are absent, one of them named twice; null is there, and neither check is run. -/
theorem failure?_presence_first_group :
    let r : Rule := (RuleWith.on (.group ["to", "from", "via", "to"])).addAll
      [.len (.unusable .null), .check "never" fun _ _ => false]
    let subject : Option Value := some (.object [("from", .null)])
    (Settings.settle r.flags .unset).required = true ∧ r.target.absentFrom subject = ["to", "via", "to"] ∧
      (Settings.settle r.flags .unset).short = true ∧
      r.failure? subject .unset = some (.bare "Is required [to,via,to]") := by
  intro r subject
  have habsent : r.target.absentFrom subject = ["to", "via", "to"] := by decide
  have htext : r.absenceText subject = "Is required [to,via,to]" := by decide
  refine ⟨rfl, habsent, rfl, ?_⟩
  rw [((failure?_presence_first r subject .unset).1 rfl (by rw [habsent]; decide)).1 rfl, htext]

end RuleWith
end FieldRules
