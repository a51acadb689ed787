import FieldRules.Validation
/-!
# Loading — lists of rules are read as a whole

A list of written rules is read entry by entry, and comes to a list of rules only if every entry is a rule
(`entriesOf_eq_ok_iff`).  Otherwise the first entry that is none decides, whatever is wrong with those behind it:
**the list is refused with the place of that entry and with its fault** (`entriesOf_eq_error_iff`).  Whoever takes
rules from a value that may not hold any then has no rules at all, not the good ones among the bad.
-/
namespace FieldRules

theorem map_eq_ok_iff {ε α β : Type} (f : α → β) (x : Except ε α) (b : β) :
    x.map f = .ok b ↔ ∃ a, x = .ok a ∧ f a = b := by
  cases x <;> simp [Except.map]

theorem map_eq_error_iff {ε α β : Type} (f : α → β) (x : Except ε α) (e : ε) : x.map f = .error e ↔ x = .error e := by
  cases x <;> simp [Except.map]

namespace RuleWith

/-! ## Entries -/

/-- The entry in place `i` has the fault, and every entry before it is a rule. -/
def FirstFault (items : List Value) (i : Nat) (fault : RuleFault) : Prop :=
  (∃ v, items[i]? = some v ∧ (ofValue v : Except _ Rule) = .error fault) ∧
    ∀ j < i, ∀ w, items[j]? = some w → ∃ r : Rule, ofValue w = .ok r

theorem firstFault_cons_of_error {v : Value} {fault : RuleFault} (hv : (ofValue v : Except _ Rule) = .error fault)
    (rest : List Value) (i : Nat) (fault' : RuleFault) :
    FirstFault (v :: rest) i fault' ↔ i = 0 ∧ fault' = fault := by
  constructor
  · rintro ⟨⟨w, hw, hfault⟩, hbefore⟩
    cases i with
    | zero =>
      obtain rfl : v = w := Option.some.inj hw
      rw [hv] at hfault
      exact ⟨rfl, (Except.error.inj hfault).symm⟩
    | succ i =>
      obtain ⟨r, hr⟩ := hbefore 0 (Nat.succ_pos i) v rfl
      rw [hv] at hr
      cases hr
  · rintro ⟨rfl, rfl⟩
    exact ⟨⟨v, rfl, hv⟩, fun j hj => absurd hj (Nat.not_lt_zero j)⟩

theorem firstFault_cons_of_ok {v : Value} {r : Rule} (hv : ofValue v = .ok r) (rest : List Value) (i : Nat)
    (fault : RuleFault) : FirstFault (v :: rest) i fault ↔ ∃ j, i = j + 1 ∧ FirstFault rest j fault := by
  constructor
  · rintro ⟨⟨w, hw, hfault⟩, hbefore⟩
    cases i with
    | zero =>
      obtain rfl : v = w := Option.some.inj hw
      rw [hv] at hfault
      cases hfault
    | succ i => exact ⟨i, rfl, ⟨w, hw, hfault⟩, fun j hj u hu => hbefore (j + 1) (Nat.succ_lt_succ hj) u hu⟩
  · rintro ⟨i, rfl, hfault, hbefore⟩
    refine ⟨hfault, fun j hj u hu => ?_⟩
    cases j with
    | zero =>
      obtain rfl : v = u := Option.some.inj hu
      exact ⟨r, hv⟩
    | succ j => exact hbefore j (Nat.lt_of_succ_lt_succ hj) u hu

theorem entriesOf_cons_of_error {v : Value} {fault : RuleFault} (hv : (ofValue v : Except _ Rule) = .error fault)
    (index : Nat) (rest : List Value) :
    (entriesOf index (v :: rest) : Except _ (List Rule)) = .error (.entry index fault) := by
  rw [entriesOf, hv]

theorem entriesOf_cons_of_ok {v : Value} {r : Rule} (hv : ofValue v = .ok r) (index : Nat) (rest : List Value) :
    entriesOf index (v :: rest) = (entriesOf (index + 1) rest).map (r :: ·) := by
  rw [entriesOf, hv]

/-- **Entries come to rules when each of them is one**, place by place. -/
theorem entriesOf_eq_ok_iff :
    ∀ (index : Nat) (items : List Value) (rules : List Rule),
      entriesOf index items = .ok rules ↔ items.map ofValue = rules.map .ok
  | index, [], rules => by
    rw [entriesOf, Except.ok.injEq, List.map_nil, eq_comm (a := []), eq_comm (a := []), List.map_eq_nil_iff]
  | index, v :: rest, rules => by
    have ih := entriesOf_eq_ok_iff (index + 1) rest
    cases hv : (ofValue v : Except _ Rule) with
    | error fault =>
      rw [entriesOf_cons_of_error hv, List.map_cons, hv]
      cases rules <;> simp
    | ok r =>
      rw [entriesOf_cons_of_ok hv, List.map_cons, hv, map_eq_ok_iff]
      cases rules with
      | nil => simp
      | cons s rules =>
        simp only [ih, List.cons.injEq, List.map_cons, Except.ok.injEq]
        constructor
        · rintro ⟨items, hitems, rfl, rfl⟩
          exact ⟨rfl, hitems⟩
        · rintro ⟨rfl, hrest⟩
          exact ⟨rules, hrest, rfl, rfl⟩

/-- **Entries are refused for the first of them that is no rule.** -/
theorem entriesOf_eq_error_iff :
    ∀ (index : Nat) (items : List Value) (e : RulesFault),
      (entriesOf index items : Except _ (List Rule)) = .error e ↔
        ∃ i fault, FirstFault items i fault ∧ e = .entry (index + i) fault
  | index, [], e => by simp [entriesOf, FirstFault]
  | index, v :: rest, e => by
    have ih := entriesOf_eq_error_iff (index + 1) rest e
    cases hv : (ofValue v : Except _ Rule) with
    | error fault =>
      rw [entriesOf_cons_of_error hv, Except.error.injEq]
      simp only [firstFault_cons_of_error hv]
      constructor
      · rintro rfl
        exact ⟨0, fault, ⟨rfl, rfl⟩, rfl⟩
      · rintro ⟨i, fault', ⟨rfl, rfl⟩, rfl⟩
        rfl
    | ok r =>
      rw [entriesOf_cons_of_ok hv, map_eq_error_iff, ih]
      simp only [firstFault_cons_of_ok hv]
      -- a place in the rest is one further in the whole list
      have hplace : ∀ i, index + 1 + i = index + (i + 1) := fun i => by omega
      constructor
      · rintro ⟨i, fault, hfault, rfl⟩
        exact ⟨i + 1, fault, ⟨i, rfl, hfault⟩, by rw [hplace]⟩
      · rintro ⟨_, fault, ⟨i, rfl, hfault⟩, rfl⟩
        exact ⟨i, fault, hfault, by rw [hplace]⟩

theorem exists_firstFault {items : List Value} {v : Value} (hv : v ∈ items) {fault : RuleFault}
    (hfault : (ofValue v : Except _ Rule) = .error fault) : ∃ i fault', FirstFault items i fault' := by
  cases h : (entriesOf 0 items : Except _ (List Rule)) with
  | ok rules =>
    have hmem : (ofValue v : Except _ Rule) ∈ rules.map .ok :=
      (entriesOf_eq_ok_iff 0 items rules).1 h ▸ List.mem_map_of_mem hv
    obtain ⟨r, -, hr⟩ := List.mem_map.1 hmem
    rw [hfault] at hr
    cases hr
  | error e =>
    obtain ⟨i, fault', hfirst, -⟩ := (entriesOf_eq_error_iff 0 items e).1 h
    exact ⟨i, fault', hfirst⟩

theorem listOfValue_array_eq_error_iff (items : List Value) (e : RulesFault) :
    (listOfValue (.array items) : Except _ (List Rule)) = .error e ↔
      ∃ i fault, FirstFault items i fault ∧ e = .entry i fault := by
  rw [listOfValue, entriesOf_eq_error_iff]
  simp only [Nat.zero_add]

theorem exists_listOfValue_array_iff (items : List Value) :
    (∃ rules : List Rule, listOfValue (.array items) = .ok rules) ↔ ∀ v ∈ items, ∃ r : Rule, ofValue v = .ok r := by
  constructor
  · rintro ⟨rules, hrules⟩ v hv
    cases h : (ofValue v : Except _ Rule) with
    | ok r => exact ⟨r, rfl⟩
    | error fault =>
      obtain ⟨i, fault', hfirst⟩ := exists_firstFault hv h
      rw [(listOfValue_array_eq_error_iff items _).2 ⟨i, fault', hfirst, rfl⟩] at hrules
      cases hrules
  · intro hall
    cases h : (listOfValue (.array items) : Except _ (List Rule)) with
    | ok rules => exact ⟨rules, rfl⟩
    | error e =>
      obtain ⟨i, fault, ⟨⟨v, hv, hfault⟩, -⟩, -⟩ := (listOfValue_array_eq_error_iff items e).1 h
      obtain ⟨r, hr⟩ := hall v (List.mem_of_getElem? hv)
      rw [hr] at hfault
      cases hfault

/-- The values that the rules of a list are read from: the entries of an array, and else the value itself. -/
def writtenIn : Value → List Value
  | .array items => items
  | v => [v]

theorem map_ofValue_of_listOfValue {v : Value} {rules : List Rule} (h : listOfValue v = .ok rules) :
    (writtenIn v).map ofValue = rules.map .ok := by
  cases v with
  | array items => exact (entriesOf_eq_ok_iff 0 items rules).1 h
  | object ms =>
    rw [listOfValue] at h
    cases hr : (ofValue (.object ms) : Except _ Rule) with
    | error fault =>
      rw [hr] at h
      cases h
    | ok r =>
      rw [hr] at h
      cases h
      exact congrArg (fun x => [x]) hr
  | _ => cases h

theorem exists_ofValue_of_mem {v : Value} {rules : List Rule} (h : listOfValue v = .ok rules) {r : Rule}
    (hr : r ∈ rules) : ∃ w ∈ writtenIn v, ofValue w = .ok r := by
  have hmem : (.ok r : Except RuleFault Rule) ∈ (writtenIn v).map ofValue :=
    map_ofValue_of_listOfValue h ▸ List.mem_map_of_mem hr
  obtain ⟨w, hw, hread⟩ := List.mem_map.1 hmem
  exact ⟨w, hw, hread⟩

theorem listOfValue_of_kind_ne {v : Value} (harray : v.kind ≠ .array) (hobject : v.kind ≠ .object) :
    (listOfValue v : Except _ (List Rule)) = .error (.notRules v.kind) := by
  cases v with
  | array items => exact absurd rfl harray
  | object ms => exact absurd rfl hobject
  | _ => rfl

end RuleWith

/-! ## Rulebooks -/

namespace Rulebook

theorem ofValue_eq_rules {v : Value} {items : List Rule} (h : RuleWith.listOfValue v = .ok items) :
    ofValue v = .rules items := by
  rw [ofValue, h]

theorem ofValue_eq_malformed {v : Value} {e : RulesFault}
    (h : (RuleWith.listOfValue v : Except _ (List Rule)) = .error e) : ofValue v = .malformed := by
  rw [ofValue, h]

theorem isMalformed_ofValue_iff (v : Value) :
    (ofValue v).isMalformed = true ↔ ∃ e, (RuleWith.listOfValue v : Except _ (List Rule)) = .error e := by
  cases h : (RuleWith.listOfValue v : Except _ (List Rule)) with
  | ok items => simp [ofValue_eq_rules h, isMalformed]
  | error e => simp [ofValue_eq_malformed h, isMalformed]

theorem validate_of_error {v : Value} {e : RulesFault}
    (h : (RuleWith.listOfValue v : Except _ (List Rule)) = .error e) (subject : Option Value)
    (call : Option Overrides) : (ofValue v).validate subject call = ∅ := by
  rw [ofValue_eq_malformed h]
  rfl

end Rulebook

open RuleWith (ofValue listOfValue FirstFault)

/-- **Rules are loaded all together or not at all.**  An array of rules is read when every entry is a rule, each in its
place; otherwise it is refused with the place and the fault of the first entry that is none, and nothing further is
behind that fault.  An object is read as one rule or refused with that rule's own fault; anything else is no list of
rules.  Taken leniently, a value is malformed exactly when it is refused: then it validates to the empty report, and
otherwise as the rules it was read as, so that one bad entry silences all the others. -/
theorem loading_all_or_nothing :
    (∀ items : List Value,
      (∀ rules : List Rule, listOfValue (.array items) = .ok rules ↔ items.map ofValue = rules.map .ok) ∧
      ((∃ rules : List Rule, listOfValue (.array items) = .ok rules) ↔ ∀ v ∈ items, ∃ r : Rule, ofValue v = .ok r) ∧
      (∀ e, (listOfValue (.array items) : Except _ (List Rule)) = .error e ↔
        ∃ i fault, FirstFault items i fault ∧ e = .entry i fault ∧
          e.source? = some (.rule fault) ∧ (RulesFault.rule fault).source? = none)) ∧
    (∀ ms : List (String × Value),
      (∀ r : Rule, ofValue (.object ms) = .ok r → listOfValue (.object ms) = .ok [r]) ∧
      (∀ fault, (ofValue (.object ms) : Except _ Rule) = .error fault →
        (listOfValue (.object ms) : Except _ (List Rule)) = .error (.rule fault))) ∧
    (∀ v : Value, v.kind ≠ .array → v.kind ≠ .object →
      (listOfValue v : Except _ (List Rule)) = .error (.notRules v.kind)) ∧
    (∀ v : Value,
      ((Rulebook.ofValue v).isMalformed = true ↔ ∃ e, (listOfValue v : Except _ (List Rule)) = .error e) ∧
      ∀ (subject : Option Value) (call : Option Overrides),
        (∀ rules : List Rule, listOfValue v = .ok rules →
          (Rulebook.ofValue v).validate subject call = validate subject rules (call.getD .unset)) ∧
        (∀ e, (listOfValue v : Except _ (List Rule)) = .error e → (Rulebook.ofValue v).validate subject call = ∅)) ∧
    ∀ items : List Value, (∃ v ∈ items, ∃ fault, (ofValue v : Except _ Rule) = .error fault) →
      ∀ (subject : Option Value) (call : Option Overrides),
        (Rulebook.ofValue (.array items)).validate subject call = ∅ := by
  refine ⟨fun items => ⟨?_, ?_, fun e => ?_⟩, fun ms => ⟨fun r hr => ?_, fun fault hfault => ?_⟩, ?_,
    fun v => ⟨Rulebook.isMalformed_ofValue_iff v, fun subject call => ⟨fun rules hrules => ?_, fun e he => ?_⟩⟩, ?_⟩
  · exact RuleWith.entriesOf_eq_ok_iff 0 items
  · exact RuleWith.exists_listOfValue_array_iff items
  · rw [RuleWith.listOfValue_array_eq_error_iff]
    constructor
    · rintro ⟨i, fault, hfirst, rfl⟩
      exact ⟨i, fault, hfirst, rfl, rfl, rfl⟩
    · rintro ⟨i, fault, hfirst, rfl, -, -⟩
      exact ⟨i, fault, hfirst, rfl⟩
  · rw [listOfValue, hr]
  · rw [listOfValue, hfault]
  · exact fun v => RuleWith.listOfValue_of_kind_ne
  · rw [Rulebook.ofValue_eq_rules hrules]
    rfl
  · exact Rulebook.validate_of_error he subject call
  · rintro items ⟨v, hv, fault, hfault⟩ subject call
    obtain ⟨i, fault', hfirst⟩ := RuleWith.exists_firstFault hv hfault
    exact Rulebook.validate_of_error ((RuleWith.listOfValue_array_eq_error_iff items _).2 ⟨i, fault', hfirst, rfl⟩)
      subject call

/-- A rule by itself is read and finds its field missing; before two entries that are no rules it finds nothing. -/
theorem loading_all_or_nothing_two_bad :
    let good : Value := .object [("name", .string "a"), ("len", .null)]
    let items : List Value := [good, .object [("name", .null)], .bool true]
    FirstFault items 1 .badName ∧
      (listOfValue (.array items) : Except _ (List Rule)) = .error (.entry 1 .badName) ∧
      (∃ v ∈ items, ∃ fault, (ofValue v : Except _ Rule) = .error fault) ∧
      (Rulebook.ofValue (.array items)).validate none none = ∅ ∧
      (∃ r : Rule, ofValue good = .ok r ∧ listOfValue good = .ok [r] ∧
        (Rulebook.ofValue good).validate none none = validate none [r] .unset ∧ (validate none [r] .unset).keys = ["a"]) ∧
      Value.kind (.bool true) ≠ .array ∧ Value.kind (.bool true) ≠ .object ∧
      (listOfValue (.bool true) : Except _ (List Rule)) = .error (.notRules .boolean) := by
  intro good items
  obtain ⟨harray, hobject, hother, hlenient, hsilent⟩ := loading_all_or_nothing
  have hgood : ∃ r : Rule, ofValue good = .ok r := ⟨_, rfl⟩
  have hbad : (ofValue (.object [("name", .null)]) : Except _ Rule) = .error .badName := rfl
  have hfirst : FirstFault items 1 .badName := by
    refine ⟨⟨_, rfl, hbad⟩, fun j hj w hw => ?_⟩
    obtain rfl : j = 0 := Nat.lt_one_iff.1 hj
    obtain rfl : good = w := Option.some.inj hw
    exact hgood
  have hsome : ∃ v ∈ items, ∃ fault, (ofValue v : Except _ Rule) = .error fault :=
    ⟨.object [("name", .null)], by simp [items], .badName, hbad⟩
  obtain ⟨r, hr⟩ := hgood
  have hone : listOfValue good = .ok [r] := (hobject _).1 r hr
  have hkind : Value.kind (.bool true) ≠ .array ∧ Value.kind (.bool true) ≠ .object := by decide
  refine ⟨hfirst, ((harray items).2.2 _).2 ⟨1, .badName, hfirst, rfl, rfl, rfl⟩, hsome, hsilent items hsome none none,
    ⟨r, hr, hone, ((hlenient good).2 none none).1 [r] hone, ?_⟩, hkind.1, hkind.2, hother _ hkind.1 hkind.2⟩
  cases hr
  decide

end FieldRules
