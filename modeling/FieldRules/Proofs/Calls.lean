import FieldRules.Proofs.Locality
/-!
# Calls — what the flags of a call can still decide

A call has its say on a flag only where the rule leaves the flag open, and even there it can come too late: whether
absence is an error does not matter where nothing is absent, and whether one failure is enough does not matter where a
single message is reported or where presence has decided before any check is run.  Two calls that a rule settles alike
up to those cases (`SettlesAlike`) find the same wrong with a subject, and **two calls that every rule settles alike
come to one report**.
-/
namespace FieldRules

/-! ## Settling flags -/

namespace Settings

/-- **The call is not asked about a flag that the rule sets.** -/
theorem settle_set_of_own {own : Overrides} {f : Flag} (h : own.get f ≠ none) (call : Overrides) (x : Option Bool) :
    settle own (call.set f x) = settle own call := by
  refine Flags.ext_get fun g => ?_
  rw [get_settle, get_settle, Flags.get_set]
  by_cases hg : g = f
  · obtain ⟨b, hb⟩ := Option.ne_none_iff_exists'.1 h
    rw [hg, hb, Option.some_or, Option.some_or]
  · rw [if_neg hg]

/-- **To leave a flag open in a call is to switch it on.** -/
theorem settle_set_none (own call : Overrides) (f : Flag) :
    settle own (call.set f none) = settle own (call.set f (some true)) := by
  refine Flags.ext_get fun g => ?_
  rw [get_settle, get_settle, Flags.get_set, Flags.get_set]
  by_cases hg : g = f
  · rw [if_pos hg, if_pos hg]
    cases own.get g <;> rfl
  · rw [if_neg hg, if_neg hg]

theorem settle_set_of_ne (own call : Overrides) {f g : Flag} (h : g ≠ f) (x : Option Bool) :
    (settle own (call.set f x)).get g = (settle own call).get g := by
  rw [get_settle, get_settle, Flags.get_set, if_neg h]

end Settings

/-! ## One rule -/

/-- How many failures are enough matters only where there are two to be reported by name. -/
theorem Failure.ofComplaints_congr {o o' : Settings} {cs : List (String × String)} (hshort : o.short = o'.short)
    (hfirst : o.short = false → 2 ≤ cs.length → o.findFirst = o'.findFirst) :
    ofComplaints o cs = ofComplaints o' cs := by
  cases cs with
  | nil => rfl
  | cons c rest =>
    rw [ofComplaints, ofComplaints, ← hshort]
    cases hs : o.short with
    | true => rfl
    | false =>
      cases rest with
      | nil => simp
      | cons d rest => rw [hfirst hs (by simp)]

namespace RuleWith

/-- Names are absent, and that decides before any check is run: they fail the rule, or they excuse a field of its own. -/
def SettledByPresence (r : Rule) (subject : Option Value) (required : Bool) : Prop :=
  r.target.absentFrom subject ≠ [] ∧ (required = true ∨ r.target.isGroup = false)

theorem length_complaints_of_settledByPresence {r : Rule} {subject : Option Value} {required : Bool}
    (h : r.SettledByPresence subject required) :
    (r.complaints required (r.target.observe subject)).length ≤ 1 := by
  obtain ⟨habsent, hsettled⟩ := h
  rw [complaints_observe, if_neg habsent]
  cases required with
  | true => simp
  | false =>
    obtain hreq | hsingle := hsettled
    · cases hreq
    · simp [hsingle]

theorem complaints_observe_of_present (r : Rule) {subject : Option Value} (h : r.target.absentFrom subject = [])
    (required required' : Bool) :
    r.complaints required (r.target.observe subject) = r.complaints required' (r.target.observe subject) := by
  rw [complaints_observe, complaints_observe, if_pos h, if_pos h]

/-- The rule settles the flags of both calls alike, so far as they can decide anything about the subject. -/
structure SettlesAlike (r : Rule) (subject : Option Value) (call call' : Overrides) : Prop where
  short : (Settings.settle r.flags call).short = (Settings.settle r.flags call').short
  required : r.target.absentFrom subject ≠ [] →
    (Settings.settle r.flags call).required = (Settings.settle r.flags call').required
  findFirst : (Settings.settle r.flags call).short = false →
    ¬r.SettledByPresence subject (Settings.settle r.flags call).required →
    (Settings.settle r.flags call).findFirst = (Settings.settle r.flags call').findFirst

theorem complaints_eq_of_settlesAlike {r : Rule} {subject : Option Value} {call call' : Overrides}
    (h : r.SettlesAlike subject call call') :
    r.complaints (Settings.settle r.flags call).required (r.target.observe subject)
      = r.complaints (Settings.settle r.flags call').required (r.target.observe subject) := by
  by_cases habsent : r.target.absentFrom subject = []
  · exact r.complaints_observe_of_present habsent _ _
  · rw [h.required habsent]

/-- **A rule that settles two calls alike finds the same.** -/
theorem failure?_eq_of_settlesAlike {r : Rule} {subject : Option Value} {call call' : Overrides}
    (h : r.SettlesAlike subject call call') : r.failure? subject call = r.failure? subject call' := by
  rw [failure?, failure?, judge_eq_ofComplaints, judge_eq_ofComplaints, ← complaints_eq_of_settlesAlike h]
  -- two complaints are found only where the checks are run
  refine Failure.ofComplaints_congr h.short fun hfull hmany => h.findFirst hfull fun hsettled => ?_
  have hone := length_complaints_of_settledByPresence hsettled
  omega

theorem failure?_congr_settle {r : Rule} {call call' : Overrides}
    (h : Settings.settle r.flags call = Settings.settle r.flags call') (subject : Option Value) :
    r.failure? subject call = r.failure? subject call' := by
  rw [failure?, failure?, h]

/-- **A short report ends with its first failure anyway.** -/
theorem settlesAlike_set_findFirst {r : Rule} {call : Overrides} (h : (Settings.settle r.flags call).short = true)
    (subject : Option Value) (x : Option Bool) : r.SettlesAlike subject (call.set .findFirst x) call where
  short := Settings.settle_set_of_ne r.flags call (g := .short) (by decide) x
  required _ := Settings.settle_set_of_ne r.flags call (g := .required) (by decide) x
  findFirst hfull := by
    have hshort : (Settings.settle r.flags (call.set .findFirst x)).short = (Settings.settle r.flags call).short :=
      Settings.settle_set_of_ne r.flags call (g := .short) (by decide) x
    rw [hshort, h] at hfull
    cases hfull

end RuleWith

/-! ## All rules -/

/-- **A call matters only through the flags that it can still decide.**  Two calls come to one report, order included,
when every rule settles them alike: with one way of reporting, with one answer to whether absence is an error unless
nothing is absent, and with one answer to whether a failure is enough unless a single message is reported or presence
decides.  So what a call says of a flag that every rule sets does not matter, nothing said is as good as a flag
switched on, and whether one failure is enough never matters to a rule whose report is short. -/
theorem validate_settling (subject : Option Value) (rules : List Rule) :
    (∀ call call' : Overrides, (∀ r ∈ rules, r.SettlesAlike subject call call') →
      validate subject rules call = validate subject rules call') ∧
    (∀ (call : Overrides) (f : Flag) (x : Option Bool), (∀ r ∈ rules, r.flags.get f ≠ none) →
      validate subject rules (call.set f x) = validate subject rules call) ∧
    (∀ (call : Overrides) (f : Flag),
      validate subject rules (call.set f none) = validate subject rules (call.set f (some true))) ∧
    (∀ (call : Overrides) (x : Option Bool) (r : Rule), (Settings.settle r.flags call).short = true →
      r.failure? subject (call.set .findFirst x) = r.failure? subject call) ∧
    ∀ (call : Overrides) (x : Option Bool), (∀ r ∈ rules, (Settings.settle r.flags call).short = true) →
      validate subject rules (call.set .findFirst x) = validate subject rules call := by
  have hshort : ∀ (call : Overrides) (x : Option Bool) (r : Rule), (Settings.settle r.flags call).short = true →
      r.failure? subject (call.set .findFirst x) = r.failure? subject call := by
    intro call x r h
    exact RuleWith.failure?_eq_of_settlesAlike (RuleWith.settlesAlike_set_findFirst h subject x)
  refine ⟨fun call call' h => ?_, fun call f x h => ?_, fun call f => ?_, hshort, fun call x h => ?_⟩
  · exact validate_congr fun r hr => RuleWith.failure?_eq_of_settlesAlike (h r hr)
  · exact validate_congr fun r hr => RuleWith.failure?_congr_settle (Settings.settle_set_of_own (h r hr) call x) subject
  · exact validate_congr fun r _ => RuleWith.failure?_congr_settle (Settings.settle_set_none r.flags call f) subject
  · exact validate_congr fun r hr => hshort call x r (h r hr)

/-- The two calls differ in every flag, and no rule minds: the first reports a single message on what is there, presence
decides the next two, and the last sets what it needs. -/
theorem validate_settling_late :
    let odd (target : Target) (flags : Overrides) : Rule :=
      { (RuleWith.on target).addAll [.len (.atLeast 4), .check "never" fun _ _ => false] with flags := flags }
    let brief := odd (.single "nick") .unset
    let lacking := odd (.group ["from", "to"]) ⟨some true, none, some false⟩
    let excused := odd (.single "mail") ⟨some false, none, some false⟩
    let thorough := odd (.single "age") ⟨none, some false, some false⟩
    let rules := [brief, lacking, excused, thorough]
    let subject : Option Value := some (.object [("nick", .string "3xt"), ("from", .null), ("age", .null)])
    let call : Overrides := ⟨none, some false, none⟩
    let call' : Overrides := ⟨some false, none, some true⟩
    (∀ r ∈ rules, r.SettlesAlike subject call call') ∧ validate subject rules call = validate subject rules call' ∧
      (validate subject rules call).entries = [
        ("nick", .bare "Expected min 4 symbols. Given: 3"),
        ("from", .byCheck (.ofList [("isRequired", "Is required [to]")])),
        ("to", .byCheck (.ofList [("isRequired", "Is required [to]")])),
        ("age", .byCheck (.ofList [("len", "Expected min 4 symbols. Given: n/a"), ("never", "Error")]))] ∧
      (∀ r ∈ [thorough], r.flags.get .findFirst ≠ none) ∧
      validate subject [thorough] (call.set .findFirst (some true)) = validate subject [thorough] call ∧
      (Settings.settle brief.flags call).short = true ∧
      brief.failure? subject (call.set .findFirst none) = brief.failure? subject call ∧
      (∀ r ∈ [brief], (Settings.settle r.flags call).short = true) ∧
      validate subject [brief] (call.set .findFirst none) = validate subject [brief] call := by
  intro odd brief lacking excused thorough rules subject call call'
  have halike : ∀ r ∈ rules, r.SettlesAlike subject call call' := by
    refine List.forall_mem_cons.2 ⟨⟨rfl, ?_, ?_⟩, List.forall_mem_cons.2 ⟨⟨rfl, fun _ => rfl, ?_⟩,
      List.forall_mem_cons.2 ⟨⟨rfl, fun _ => rfl, ?_⟩, List.forall_mem_cons.2 ⟨⟨rfl, ?_, fun _ _ => rfl⟩, by simp⟩⟩⟩⟩
    · exact fun habsent => absurd (by decide) habsent
    · exact fun hfull => nomatch hfull
    · exact fun _ hchecks => absurd ⟨by decide, .inl rfl⟩ hchecks
    · exact fun _ hchecks => absurd ⟨by decide, .inr rfl⟩ hchecks
    · exact fun habsent => absurd (by decide) habsent
  have hset : ∀ r ∈ [thorough], r.flags.get .findFirst ≠ none := by decide
  have hbrief : ∀ r ∈ [brief], (Settings.settle r.flags call).short = true := by decide
  exact ⟨halike, (validate_settling subject rules).1 call call' halike, by decide, hset,
    (validate_settling subject [thorough]).2.1 call .findFirst (some true) hset, rfl,
    (validate_settling subject [brief]).2.2.2.1 call none brief rfl, hbrief,
    (validate_settling subject [brief]).2.2.2.2 call none hbrief⟩

end FieldRules
