import FieldRules.Proofs.Grammar
import FieldRules.Proofs.Loading
import FieldRules.Proofs.Locality
/-!
# Sizes — what rules without bodies see of a value

A rule that was read from a value has no checks of its own and no computed messages.  What is left of it asks of a value
only whether it is there, how long it is and whether it is empty, and of a group only which of its slots are open.  Two
values of which this is the same are alike (`Observed.Alike`), and **such a rule cannot tell them apart**
(`judge_eq_of_alike`): neither by presence nor by a check nor by what it says.

Two subjects with the same names and with values of one size under them therefore come to one report; what stands under
the names of a group does not matter at all.
-/
namespace FieldRules

/-- The same can be told of both without a look into them. -/
structure Observed.Alike (seen seen' : Observed) : Prop where
  missing : seen.isMissing = seen'.isMissing
  opened : seen.slots.map Option.isNone = seen'.slots.map Option.isNone
  length : seen.length? = seen'.length?
  empty : seen.isEmpty = seen'.isEmpty

section Alike

variable {seen seen' : Observed}

/-! ## Presence and checks -/

theorem Presence.judge_eq_of_alike (target : Target) (required : Bool) (h : seen.Alike seen') :
    judge target required seen = judge target required seen' := by
  have hany : ∀ slots : List (Option Value), slots.any Option.isNone = (slots.map Option.isNone).any id := by
    intro slots
    rw [List.any_map]
    rfl
  unfold judge
  rw [h.missing, hany, hany, h.opened]

theorem Parameter.passes_eq_of_alike {π φ : Type} (r : RuleWith π φ) (p : Parameter) (h : seen.Alike seen') :
    p.passes seen r = p.passes seen' r := by
  cases p with
  | len => simp only [passes, h.length]
  | empty => simp only [passes, h.empty]

/-! ## Messages -/

theorem Wording.absentNames_eq_of_alike (target : Target) (h : seen.Alike seen') :
    absentNames target seen = absentNames target seen' := by
  cases target with
  | single name => rfl
  | group names =>
    have hmap : ∀ slots : List (Option Value),
        ((names.zip slots).filter fun p => p.2.isNone).map Prod.fst
          = ((names.zip (slots.map Option.isNone)).filter Prod.snd).map Prod.fst := by
      intro slots
      rw [List.zip_map_right, List.filter_map, List.map_map]
      rfl
    rw [absentNames, absentNames, hmap, hmap, h.opened]

theorem Wording.default?_eq_of_alike {π φ : Type} (check : String) (r : RuleWith π φ) (h : seen.Alike seen') :
    default? check seen r = default? check seen' r := by
  unfold default?
  rw [absentNames_eq_of_alike r.target h, h.length]

namespace RuleWith

/-- A rule without bodies: it has no checks of its own, and its wordings are texts. -/
structure IsPlain (r : Rule) : Prop where
  checks : r.checks = ∅
  wordings : ∀ check w, r.wordings.get? check = some w → ∃ text, w = .fixed text

theorem isPlain_of_ofValue {v : Value} {r : Rule} (h : ofValue v = .ok r) : r.IsPlain := by
  refine ⟨checks_of_ofValue h, fun check w hw => ?_⟩
  rw [get?_wordings_of_ofValue h] at hw
  obtain ⟨text, -, rfl⟩ := Option.map_eq_some_iff.1 hw
  exact ⟨text, rfl⟩

theorem message_eq_of_alike {r : Rule} (hr : r.IsPlain) (check : String) (h : seen.Alike seen') :
    r.message check seen = r.message check seen' := by
  unfold message
  cases hw : r.wordings.get? check with
  | none => simp only [Wording.default?_eq_of_alike check r h]
  | some w =>
    obtain ⟨text, rfl⟩ := hr.wordings check w hw
    rfl

/-! ## The judgement -/

theorem failedNames_eq_of_alike {r : Rule} (hr : r.IsPlain) (h : seen.Alike seen') :
    r.failedNames seen = r.failedNames seen' := by
  rw [failedNames_of_no_checks hr.checks, failedNames_of_no_checks hr.checks, Parameter.passes_eq_of_alike r .len h,
    Parameter.passes_eq_of_alike r .empty h]

theorem complaints_eq_of_alike {r : Rule} (hr : r.IsPlain) (required : Bool) (h : seen.Alike seen') :
    r.complaints required seen = r.complaints required seen' := by
  have hmessage : ∀ check, r.message check seen = r.message check seen' := fun check => message_eq_of_alike hr check h
  unfold complaints
  rw [Presence.judge_eq_of_alike r.target required h]
  simp only [complaintsOf_listed, failedNames_eq_of_alike hr h, hmessage]

/-- **A rule without bodies cannot tell apart what is alike.** -/
theorem judge_eq_of_alike {r : Rule} (hr : r.IsPlain) (o : Settings) (h : seen.Alike seen') :
    r.judge seen o = r.judge seen' o := by
  rw [judge_eq_ofComplaints, judge_eq_ofComplaints, complaints_eq_of_alike hr o.required h]

end RuleWith

end Alike

/-! ## Subjects -/

/-- Values of one length, if they have any, of which both or neither are empty. -/
def Value.SameSize (x y : Value) : Prop :=
  (Observed.single x).length? = (Observed.single y).length? ∧ x.isEmpty = y.isEmpty

/-- The subjects have the same of the names, and where the target is a field of its own, values of one size there. -/
structure Target.SeesAlike (target : Target) (s t : Option Value) : Prop where
  present : ∀ name ∈ target.names, name ∈ keysOf s ↔ name ∈ keysOf t
  sizes : ∀ name x y, target = .single name → lookUp s name = some x → lookUp t name = some y → x.SameSize y

theorem isNone_lookUp_eq_of_iff {s t : Option Value} {name : String} (h : name ∈ keysOf s ↔ name ∈ keysOf t) :
    (lookUp s name).isNone = (lookUp t name).isNone := by
  rw [Bool.eq_iff_iff, Option.isNone_iff_eq_none, Option.isNone_iff_eq_none, lookUp_eq_none_iff, lookUp_eq_none_iff, h]

theorem Target.alike_observe {target : Target} {s t : Option Value} (h : target.SeesAlike s t) :
    (target.observe s).Alike (target.observe t) := by
  cases target with
  | single name =>
    have hnone := isNone_lookUp_eq_of_iff (h.present name List.mem_cons_self)
    have hsizes := h.sizes name
    simp only [observe]
    cases hs : lookUp s name with
    | none =>
      rw [hs, Option.isNone_none, eq_comm, Option.isNone_iff_eq_none] at hnone
      rw [hnone]
      exact ⟨rfl, rfl, rfl, rfl⟩
    | some x =>
      rw [hs, Option.isNone_some, eq_comm, Option.isNone_eq_false_iff, Option.isSome_iff_exists] at hnone
      obtain ⟨y, ht⟩ := hnone
      obtain ⟨hlength, hempty⟩ := hsizes x y rfl hs ht
      rw [ht]
      exact ⟨rfl, rfl, hlength, hempty⟩
  | group names =>
    refine ⟨rfl, ?_, ?_, ?_⟩
    · simp only [observe, Observed.slots, List.map_map]
      exact List.map_congr_left fun name hname => isNone_lookUp_eq_of_iff (h.present name hname)
    · rw [length?_observe_group, length?_observe_group]
    · rw [isEmpty_observe_group, isEmpty_observe_group]

theorem mem_keysOf_iff (subject : Option Value) (name : String) :
    name ∈ keysOf subject ↔ lookUp subject name ≠ none := by
  rw [Ne, lookUp_eq_none_iff, Classical.not_not]

/-- **What is put under a name that is there already is not seen**, unless the name is a field of its own. -/
theorem Target.seesAlike_put {target : Target} {subject : Option Value} {key : String} (hkey : key ∈ keysOf subject)
    (htarget : target ≠ .single key) (x : Value) :
    target.SeesAlike (some ((subject.getD (.object [])).put key x)) subject where
  present name _ := by
    rw [mem_keysOf_iff, mem_keysOf_iff, lookUp_put]
    by_cases hname : name = key
    · rw [mem_keysOf_iff] at hkey
      simp [hname, hkey]
    · rw [if_neg hname]
  sizes name y z hsingle hy hz := by
    have hname : name ≠ key := fun heq => htarget (heq ▸ hsingle)
    rw [lookUp_put, if_neg hname, hz, Option.some.injEq] at hy
    rw [hy]
    exact ⟨rfl, rfl⟩

theorem Parameter.passes_len_observe_group {r : Rule} {names : List String} (h : r.target = .group names)
    (subject : Option Value) :
    Parameter.len.passes (r.target.observe subject) r = r.len.any fun bound => bound.allows names.length := by
  rw [h]
  simp only [passes, Target.length?_observe_group]
  cases r.len <;> rfl

open RuleWith (listOfValue)

/-- **Written rules see sizes, not contents.**  Two subjects come to one report, order included, if they have the same
of the names in the rules and if the values they have for a field of its own are of one size.  What stands under the
names of groups alone can therefore be replaced by anything: the length of a group is the number of its names, and only
a group without names is empty. -/
theorem written_rules_see_sizes {v : Value} {rules : List Rule} (h : listOfValue v = .ok rules) (call : Overrides) :
    (∀ s t : Option Value, (∀ r ∈ rules, r.target.SeesAlike s t) → validate s rules call = validate t rules call) ∧
    (∀ (subject : Option Value) (key : String) (x : Value), key ∈ keysOf subject →
      (∀ r ∈ rules, r.target ≠ .single key) →
      validate (some ((subject.getD (.object [])).put key x)) rules call = validate subject rules call) ∧
    ∀ r ∈ rules, ∀ names, r.target = .group names → ∀ subject : Option Value,
      (Parameter.len.passes (r.target.observe subject) r = r.len.any fun bound => bound.allows names.length) ∧
      ((r.target.observe subject).isEmpty = true ↔ names = []) := by
  have hsizes : ∀ s t : Option Value, (∀ r ∈ rules, r.target.SeesAlike s t) →
      validate s rules call = validate t rules call := by
    intro s t halike
    refine validate_congr fun r hr => ?_
    obtain ⟨w, -, hread⟩ := RuleWith.exists_ofValue_of_mem h hr
    exact RuleWith.judge_eq_of_alike (RuleWith.isPlain_of_ofValue hread) _ (Target.alike_observe (halike r hr))
  refine ⟨hsizes, fun subject key x hkey htargets => ?_, fun r _ names hnames subject => ⟨?_, ?_⟩⟩
  · exact hsizes _ _ fun r hr => Target.seesAlike_put hkey (htargets r hr) x
  · exact Parameter.passes_len_observe_group hnames subject
  · rw [hnames, Target.isEmpty_observe_group, List.isEmpty_iff]

/-- A string and an array of one length under `nick`, and anything at all under the names of the group. -/
theorem written_rules_see_sizes_interval :
    let v : Value := .array [
      .object [("name", .string "nick"), ("len", .array [.string "6", .string "9"]), ("short", .bool false)],
      .object [("name", .array [.string "from", .string "to"]), ("len", .string "3")]]
    let s : Option Value := some (.object [("nick", .string "5text"), ("from", .null), ("to", .bool true)])
    let t : Option Value := some (.object [("to", .string "100"), ("from", .array []),
      ("nick", .array [.null, .null, .null, .null, .null])])
    ∃ rules : List Rule, listOfValue v = .ok rules ∧
      (∀ r ∈ rules, r.target.SeesAlike s t) ∧ validate s rules .unset = validate t rules .unset ∧
      (validate s rules .unset).keys = ["nick", "from", "to"] ∧
      "to" ∈ keysOf s ∧ (∀ r ∈ rules, r.target ≠ .single "to") ∧
      validate (some ((s.getD (.object [])).put "to" .null)) rules .unset = validate s rules .unset := by
  intro v s t
  have hread : ∃ rules : List Rule, listOfValue v = .ok rules := ⟨_, rfl⟩
  obtain ⟨rules, hrules⟩ := hread
  obtain ⟨hsizes, hput, -⟩ := written_rules_see_sizes hrules .unset
  have htargets : ∀ r ∈ rules, r.target = .single "nick" ∨ r.target = .group ["from", "to"] := by
    cases hrules
    decide
  have halike : ∀ r ∈ rules, r.target.SeesAlike s t := by
    intro r hr
    obtain hr | hr := htargets r hr <;> rw [hr]
    · refine ⟨by decide, fun name x y hname hx hy => ?_⟩
      cases hname
      cases hx
      cases hy
      exact ⟨by decide, by decide⟩
    · exact ⟨by decide, fun name x y hname => nomatch hname⟩
  have hto : ∀ r ∈ rules, r.target ≠ .single "to" := by
    intro r hr
    obtain hr | hr := htargets r hr <;> rw [hr] <;> decide
  refine ⟨rules, hrules, halike, hsizes s t halike, ?_, by decide, hto, hput s "to" .null (by decide) hto⟩
  cases hrules
  decide

end FieldRules
