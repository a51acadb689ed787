import FieldRules.Proofs.Findings
import FieldRules.Proofs.Presence
import Mathlib.Data.List.Basic
import Mathlib.Data.List.Flatten
/-!
# Locality — what of a subject the entry of a field depends on

A rule sees nothing of a subject but what stands under the names of its own target.  Two subjects that agree on those
names fail the rule in the same way (`failure?_eq_of_agreeOn`), so that a field has the same entry for both as soon as
they agree on every name that some rule names together with the field.  The rules that fail need not be the same ones
in the two runs: **only those that name the field have a say** (`get?_validate_congr`).
-/
namespace FieldRules

/-- Each of the names is absent from both subjects, or stands in both with one value.  It is the same value down to the
way it is written, since a check of a rule's own may look at that. -/
def AgreeOn (names : List String) (s t : Option Value) : Prop :=
  ∀ name ∈ names, lookUp s name = lookUp t name

/-! ## One rule -/

theorem Target.observe_eq_of_agreeOn (target : Target) {s t : Option Value} (h : AgreeOn target.names s t) :
    target.observe s = target.observe t := by
  cases target with
  | single name =>
    have hname : lookUp s name = lookUp t name := h name List.mem_cons_self
    rw [observe, observe, hname]
  | group names =>
    have hslots : names.map (lookUp s) = names.map (lookUp t) := List.map_congr_left h
    rw [observe, observe, hslots]

namespace RuleWith

/-- **A rule tells two subjects apart by the names of its target alone.** -/
theorem failure?_eq_of_agreeOn (r : Rule) (call : Overrides) {s t : Option Value} (h : AgreeOn r.target.names s t) :
    r.failure? s call = r.failure? t call := by
  rw [failure?, failure?, r.target.observe_eq_of_agreeOn h]

theorem findings_congr (r : Rule) {s t : Option Value} {call call' : Overrides}
    (h : r.failure? s call = r.failure? t call') : r.findings s call = r.findings t call' := by
  rw [findings, findings, h]

theorem finding?_congr (r : Rule) {s t : Option Value} {call call' : Overrides} {field : String}
    (h : field ∈ r.target.names → r.failure? s call = r.failure? t call') :
    r.finding? s call field = r.finding? t call' field := by
  unfold finding?
  by_cases hname : field ∈ r.target.names
  · rw [if_pos hname, if_pos hname, h hname]
  · rw [if_neg hname, if_neg hname]

end RuleWith

/-! ## Two runs -/

/-- **Two runs in which every rule does the same come to one report**, order included. -/
theorem validate_congr {rules : List Rule} {s t : Option Value} {call call' : Overrides}
    (h : ∀ r ∈ rules, r.failure? s call = r.failure? t call') : validate s rules call = validate t rules call' := by
  rw [validate_eq_ofList, validate_eq_ofList]
  exact congrArg Table.ofList (List.flatMap_congr fun r hr => r.findings_congr (h r hr))

/-- **Two runs in which the rules that name a field do the same come to one entry for it**, whatever the other rules
do. -/
theorem get?_validate_congr {rules : List Rule} {s t : Option Value} {call call' : Overrides} {field : String}
    (h : ∀ r ∈ rules, field ∈ r.target.names → r.failure? s call = r.failure? t call') :
    (validate s rules call).get? field = (validate t rules call').get? field := by
  rw [get?_validate, get?_validate, ← List.head?_filterMap, ← List.head?_filterMap]
  refine congrArg List.head? (List.filterMap_congr fun r hr => ?_)
  exact r.finding?_congr (h r (List.mem_reverse.1 hr))

/-! ## Subjects that agree -/

theorem agreeOn_of_keysOf_eq_nil {s t : Option Value} (hs : keysOf s = []) (ht : keysOf t = []) (names : List String) :
    AgreeOn names s t := by
  intro name _
  rw [(lookUp_eq_none_iff s name).2 (by simp [hs]), (lookUp_eq_none_iff t name).2 (by simp [ht])]

theorem keysOf_of_kind_ne_object {v : Value} (h : v.kind ≠ .object) : keysOf (some v) = [] := by
  cases v with
  | object ms => exact absurd rfl h
  | _ => rfl

theorem lookUp_put (subject : Option Value) (key : String) (v : Value) (name : String) :
    lookUp (some ((subject.getD (.object [])).put key v)) name = if name = key then some v else lookUp subject name := by
  rw [lookUp, Option.bind_some, Value.get?_put]
  cases subject <;> rfl

theorem lookUp_erase (subject : Option Value) (key name : String) :
    lookUp (subject.map (·.erase key)) name = if name = key then none else lookUp subject name := by
  cases subject with
  | none => simp [lookUp]
  | some v => rw [lookUp, Option.map_some, Option.bind_some, Value.get?_erase, lookUp, Option.bind_some]

theorem agreeOn_put {names : List String} {key : String} (hkey : key ∉ names) (subject : Option Value) (v : Value) :
    AgreeOn names (some ((subject.getD (.object [])).put key v)) subject := by
  intro name hname
  have hne : name ≠ key := fun he => hkey (he ▸ hname)
  rw [lookUp_put, if_neg hne]

theorem agreeOn_erase {names : List String} {key : String} (hkey : key ∉ names) (subject : Option Value) :
    AgreeOn names (subject.map (·.erase key)) subject := by
  intro name hname
  have hne : name ≠ key := fun he => hkey (he ▸ hname)
  rw [lookUp_erase, if_neg hne]

/-- **The entry of a field depends on the names that a rule names together with it, and on nothing else.**  Subjects
that agree on all of those give the field one entry, and subjects that agree on the names of all rules give one report,
order included; no subject, a subject that is no object and the empty object are all alike.  To put or to erase a
member therefore leaves the entry of a field as it is, unless a rule names both. -/
theorem validate_locality (rules : List Rule) (call : Overrides) :
    (∀ (s t : Option Value) (field : String),
      (∀ r ∈ rules, field ∈ r.target.names → AgreeOn r.target.names s t) →
      (validate s rules call).get? field = (validate t rules call).get? field) ∧
    (∀ s t : Option Value, (∀ r ∈ rules, AgreeOn r.target.names s t) →
      validate s rules call = validate t rules call) ∧
    (∀ v : Value, v.kind ≠ .object → validate (some v) rules call = validate none rules call) ∧
    validate (some (.object [])) rules call = validate none rules call ∧
    ∀ (subject : Option Value) (key field : String),
      (∀ r ∈ rules, field ∈ r.target.names → key ∉ r.target.names) →
      (∀ v, (validate (some ((subject.getD (.object [])).put key v)) rules call).get? field =
        (validate subject rules call).get? field) ∧
      (validate (subject.map (·.erase key)) rules call).get? field = (validate subject rules call).get? field := by
  have hentry : ∀ (s t : Option Value) (field : String),
      (∀ r ∈ rules, field ∈ r.target.names → AgreeOn r.target.names s t) →
      (validate s rules call).get? field = (validate t rules call).get? field := by
    intro s t field h
    exact get?_validate_congr fun r hr hname => r.failure?_eq_of_agreeOn call (h r hr hname)
  have hreport : ∀ s t : Option Value, (∀ r ∈ rules, AgreeOn r.target.names s t) →
      validate s rules call = validate t rules call := by
    intro s t h
    exact validate_congr fun r hr => r.failure?_eq_of_agreeOn call (h r hr)
  refine ⟨hentry, hreport, fun v hv => ?_, ?_, fun subject key field h => ⟨fun v => ?_, ?_⟩⟩
  · exact hreport _ _ fun r _ => agreeOn_of_keysOf_eq_nil (keysOf_of_kind_ne_object hv) rfl r.target.names
  · exact hreport _ _ fun r _ => agreeOn_of_keysOf_eq_nil rfl rfl r.target.names
  · exact hentry _ _ field fun r hr hname => agreeOn_put (h r hr hname) subject v
  · exact hentry _ _ field fun r hr hname => agreeOn_erase (h r hr hname) subject

/-- The rule for `nick` fails on `s` and passes on `t`, where the members stand in another order; `to` is a matter of
the group alone.  `u` has a name that no rule knows, and one twice. -/
theorem validate_locality_interval :
    let rules : List Rule := [
      (RuleWith.on (.single "nick")).add (.len (.atLeast 4)),
      (RuleWith.on (.group ["from", "to"])).add (.check "never" fun _ _ => false)]
    let s : Option Value := some (.object [("from", .null), ("to", .null), ("nick", .string "3xt")])
    let t : Option Value := some (.object [("nick", .string "5text"), ("to", .null), ("from", .null)])
    let u : Option Value := some (.object [("nick", .null), ("via", .null), ("from", .null), ("nick", .string "3xt"),
      ("to", .null)])
    ¬AgreeOn ["nick"] s t ∧
      (∀ r ∈ rules, "to" ∈ r.target.names → AgreeOn r.target.names s t) ∧
      (validate s rules .unset).get? "to" = (validate t rules .unset).get? "to" ∧
      (∀ r ∈ rules, AgreeOn r.target.names s u) ∧ validate s rules .unset = validate u rules .unset ∧
      (∀ r ∈ rules, "to" ∈ r.target.names → "nick" ∉ r.target.names) ∧
      (validate (s.map (·.erase "nick")) rules .unset).get? "to" = (validate s rules .unset).get? "to" ∧
      Value.kind .null ≠ .object ∧ validate (some .null) rules .unset = validate none rules .unset := by
  intro rules s t u
  obtain ⟨hentry, hreport, hnone, -, hedit⟩ := validate_locality rules .unset
  have hnick : ¬AgreeOn ["nick"] s t := by
    intro h
    have hvalue : some (Value.string "3xt") = some (Value.string "5text") := h "nick" List.mem_cons_self
    simp at hvalue
  have hgroup : AgreeOn ["from", "to"] s t := by
    intro name hname
    obtain rfl | rfl : name = "from" ∨ name = "to" := List.mem_pair.1 hname
    · rfl
    · rfl
  have hagree : ∀ r ∈ rules, "to" ∈ r.target.names → AgreeOn r.target.names s t :=
    List.forall_mem_cons.2 ⟨fun h => absurd h (by decide), List.forall_mem_cons.2 ⟨fun _ => hgroup, by simp⟩⟩
  have hall : ∀ r ∈ rules, AgreeOn r.target.names s u := by
    refine List.forall_mem_cons.2 ⟨fun name hname => ?_, List.forall_mem_cons.2 ⟨fun name hname => ?_, by simp⟩⟩
    · obtain rfl : name = "nick" := List.mem_singleton.1 hname
      rfl
    · obtain rfl | rfl : name = "from" ∨ name = "to" := List.mem_pair.1 hname
      · rfl
      · rfl
  have hapart : ∀ r ∈ rules, "to" ∈ r.target.names → "nick" ∉ r.target.names :=
    List.forall_mem_cons.2 ⟨fun h => absurd h (by decide), List.forall_mem_cons.2 ⟨fun _ => by decide, by simp⟩⟩
  have hnull : Value.kind .null ≠ .object := by decide
  exact ⟨hnick, hagree, hentry s t "to" hagree, hall, hreport s u hall, hapart, (hedit s "nick" "to" hapart).2, hnull,
    hnone .null hnull⟩

end FieldRules
