import FieldRules.Rule.Written
/-!
# Grammar — which values are rules, and which rules they are

What is to be made of a value is said here once more, as a relation with one case for each way it can come out
(`RuleWith.Verdict`): four faults, each under the condition that those before it do not arise, and a rule.  The rule is
the one that is built from its target by adding clauses (`clausesOf`), one for every part that is written.  **Reading a
value comes out as its verdict says and no other way** (`ofValue_eq_iff_verdict`).

A null is three different things here: a flag it leaves open, as bound it allows no length, and as a wish for emptiness
it counts as false.
-/
namespace FieldRules

/-! ## Parts -/

/-- A target as it is written: a name as a string, the names of a group as an array of strings. -/
def Target.toValue : Target → Value
  | .single name => .string name
  | .group names => .array (names.map .string)

theorem mapM_string?_eq_some_iff :
    ∀ (items : List Value) (names : List String), items.mapM Value.string? = some names ↔ items = names.map .string
  | [], names => by
    rw [List.mapM_nil, Option.pure_def, Option.some.injEq, eq_comm (a := []), eq_comm (a := []), List.map_eq_nil_iff]
  | v :: items, names => by
    rw [List.mapM_cons]
    simp only [Option.bind_eq_bind, Option.bind_eq_some_iff, Option.pure_def, Option.some.injEq,
      Value.string?_eq_some_iff, mapM_string?_eq_some_iff items]
    constructor
    · rintro ⟨name, rfl, names, rfl, rfl⟩
      rfl
    · intro h
      cases names with
      | nil => cases h
      | cons name names =>
        rw [List.map_cons, List.cons.injEq] at h
        exact ⟨name, h.1, names, h.2, rfl⟩

theorem Target.ofValue?_eq_some_iff (v : Value) (target : Target) : ofValue? v = some target ↔ v = target.toValue := by
  cases v with
  | string s => cases target <;> simp [ofValue?, toValue, eq_comm]
  | array items => cases target <;> simp [ofValue?, toValue, mapM_string?_eq_some_iff]
  | _ => cases target <;> simp [ofValue?, toValue]

def Value.bool? : Value → Option Bool
  | .bool b => some b
  | _ => none

/-- The flags in the order they are read. -/
def Flag.order : List Flag := [.required, .findFirst, .short]

namespace RuleWith

variable {π φ : Type}

/-- Something of the kind `found` stands under the name of the flag, and it is neither a boolean nor null. -/
def FlagFault (v : Value) (f : Flag) (found : Kind) : Prop :=
  ∃ x, v.get? f.key = some x ∧ x.kind = found ∧ found ≠ .null ∧ found ≠ .boolean

/-- What is written besides the target: a bound and a wish for emptiness where there is anything under their names, null
included, the flags that are booleans, and the strings in an object under `msg`. -/
def clausesOf (v : Value) : List (Clause π φ) :=
  ((v.get? "len").map fun x => .len (.ofValue x)).toList
    ++ ((v.get? "empty").map fun x => .empty x.countsAsTrue).toList
    ++ Flag.order.filterMap (fun f => ((v.get? f.key).bind Value.bool?).map fun b => .flag f b)
    ++ (((v.get? "msg").bind Value.fields).elim [] Table.entries).filterMap fun m =>
        m.2.string?.map fun text => .wording m.1 (.fixed text)

/-- What is to be made of a value. -/
inductive Verdict : Value → Except RuleFault (RuleWith π φ) → Prop
  | notAnObject {v : Value} (hkind : v.kind ≠ .object) : Verdict v (.error (.notAnObject v.kind))
  | noName {v : Value} (hkind : v.kind = .object) (hname : v.get? "name" = none) : Verdict v (.error .noName)
  | badName {v name : Value} (hname : v.get? "name" = some name) (hbad : ∀ target : Target, name ≠ target.toValue) :
      Verdict v (.error .badName)
  | badFlag {v : Value} {target : Target} {before : List Flag} {f : Flag} {after : List Flag} {found : Kind}
      (hname : v.get? "name" = some target.toValue) (horder : Flag.order = before ++ f :: after)
      (hbefore : ∀ g ∈ before, ∀ k, ¬FlagFault v g k) (hbad : FlagFault v f found) :
      Verdict v (.error (.badFlag f found))
  | rule {v : Value} {target : Target} (hname : v.get? "name" = some target.toValue)
      (hflags : ∀ f k, ¬FlagFault v f k) : Verdict v (.ok ((on target).addAll (clausesOf v)))

/-! ## The target -/

theorem targetOf_of_none {v : Value} (h : v.get? "name" = none) : targetOf v = .error .noName := by
  rw [targetOf, h]

theorem targetOf_of_toValue {v : Value} {target : Target} (h : v.get? "name" = some target.toValue) :
    targetOf v = .ok target := by
  simp only [targetOf, h, (Target.ofValue?_eq_some_iff _ target).2 rfl]

theorem targetOf_of_ne_toValue {v name : Value} (h : v.get? "name" = some name)
    (hbad : ∀ target : Target, name ≠ target.toValue) : targetOf v = .error .badName := by
  have hnone : Target.ofValue? name = none := by
    rw [Option.eq_none_iff_forall_ne_some]
    exact fun target ht => hbad target ((Target.ofValue?_eq_some_iff name target).1 ht)
  simp only [targetOf, h, hnone]

/-! ## The flags -/

theorem flagOf_eq_ok {v : Value} {f : Flag} (h : ∀ k, ¬FlagFault v f k) :
    flagOf v f = .ok ((v.get? f.key).bind Value.bool?) := by
  unfold flagOf
  cases hx : v.get? f.key with
  | none => rfl
  | some x =>
    have hfault : x.kind ≠ .null → x.kind = .boolean := fun hnull =>
      Classical.byContradiction fun hbool => h x.kind ⟨x, hx, rfl, hnull, hbool⟩
    cases x with
    | null => rfl
    | bool b => rfl
    | _ => exact absurd (hfault (by simp [Value.kind])) (by simp [Value.kind])

theorem flagOf_eq_error {v : Value} {f : Flag} {found : Kind} (h : FlagFault v f found) :
    flagOf v f = .error (.badFlag f found) := by
  obtain ⟨x, hx, rfl, hnull, hbool⟩ := h
  unfold flagOf
  rw [hx]
  cases x with
  | null => exact absurd rfl hnull
  | bool b => exact absurd rfl hbool
  | _ => rfl

/-- All flags, read in their order. -/
def flagsOf (v : Value) : Except RuleFault Overrides := do
  return ⟨← flagOf v .required, ← flagOf v .findFirst, ← flagOf v .short⟩

theorem flagsOf_eq_ok {v : Value} (h : ∀ f k, ¬FlagFault v f k) :
    flagsOf v = .ok ⟨(v.get? "required").bind Value.bool?, (v.get? "findFirst").bind Value.bool?,
      (v.get? "short").bind Value.bool?⟩ := by
  simp only [flagsOf, flagOf_eq_ok (h _)]
  rfl

/-- **The first flag that is at fault is the fault.** -/
theorem flagsOf_eq_error {v : Value} {before : List Flag} {f : Flag} {after : List Flag} {found : Kind}
    (horder : Flag.order = before ++ f :: after) (hbefore : ∀ g ∈ before, ∀ k, ¬FlagFault v g k)
    (hbad : FlagFault v f found) : flagsOf v = .error (.badFlag f found) := by
  have hfault := flagOf_eq_error hbad
  rcases before with _ | ⟨g, _ | ⟨g', _ | ⟨g'', before⟩⟩⟩
  · cases horder
    simp only [flagsOf, hfault]
    rfl
  · cases horder
    simp only [flagsOf, flagOf_eq_ok (hbefore .required (by simp)), hfault]
    rfl
  · cases horder
    simp only [flagsOf, flagOf_eq_ok (hbefore .required (by simp)), flagOf_eq_ok (hbefore .findFirst (by simp)), hfault]
    rfl
  · simp [Flag.order] at horder

theorem exists_first_flagFault {v : Value} {f : Flag} {found : Kind} (h : FlagFault v f found) :
    ∃ before f after found, Flag.order = before ++ f :: after ∧ (∀ g ∈ before, ∀ k, ¬FlagFault v g k) ∧
      FlagFault v f found := by
  classical
  have hmem : f ∈ Flag.order := by cases f <;> simp [Flag.order]
  cases hfind : Flag.order.find? (fun g => decide (∃ k, FlagFault v g k)) with
  | none =>
    have hnone := List.find?_eq_none.1 hfind f hmem
    exact absurd (decide_eq_true ⟨found, h⟩) hnone
  | some g =>
    obtain ⟨hg, before, after, horder, hbefore⟩ := List.find?_eq_some_iff_append.1 hfind
    obtain ⟨k, hk⟩ := of_decide_eq_true hg
    refine ⟨before, g, after, k, horder, fun g' hg' k' hk' => ?_, hk⟩
    have hpass := hbefore g' hg'
    rw [Bool.not_eq_true', decide_eq_false_iff_not] at hpass
    exact hpass ⟨k', hk'⟩

/-! ## The clauses -/

theorem addAll_append (r : RuleWith π φ) (l m : List (Clause π φ)) : r.addAll (l ++ m) = (r.addAll l).addAll m :=
  List.foldl_append

theorem addAll_wordings (r : RuleWith π φ) (l : List (String × Wording φ)) :
    r.addAll (l.map fun e => .wording e.1 e.2)
      = { r with wordings := l.foldl (fun t e => t.insert e.1 e.2) r.wordings } := by
  induction l generalizing r with
  | nil => rfl
  | cons e l ih => exact ih (r.add (.wording e.1 e.2))

theorem filterMap_wording (v : Value) :
    ((((v.get? "msg").bind Value.fields).elim [] Table.entries).filterMap fun m =>
        m.2.string?.map fun text => (.wording m.1 (.fixed text) : Clause π φ))
      = (wordingsOf v).entries.map fun e => .wording e.1 e.2 := by
  unfold wordingsOf
  cases (v.get? "msg").bind Value.fields with
  | none => rfl
  | some messages =>
    simp only [Option.elim_some, Table.filterMap, List.map_filterMap, Option.map_map]
    rfl

theorem addAll_len (r : RuleWith π φ) (x? : Option Value) :
    r.addAll (x?.map fun x => .len (.ofValue x)).toList = { r with len := (x?.map .ofValue).or r.len } := by
  cases x? <;> rfl

theorem addAll_empty (r : RuleWith π φ) (x? : Option Value) :
    r.addAll (x?.map fun x => .empty x.countsAsTrue).toList
      = { r with empty := (x?.map Value.countsAsTrue).or r.empty } := by
  cases x? <;> rfl

theorem addAll_flags (r : RuleWith π φ) (b? : Flag → Option Bool) :
    r.addAll (Flag.order.filterMap fun f => (b? f).map fun b => .flag f b)
      = { r with flags := ⟨(b? .required).or r.flags.required, (b? .findFirst).or r.flags.findFirst,
          (b? .short).or r.flags.short⟩ } := by
  simp only [Flag.order, List.filterMap_cons, List.filterMap_nil]
  cases b? .required <;> cases b? .findFirst <;> cases b? .short <;> rfl

/-- **A rule with the clauses that are written has the parts that are written, and no checks.** -/
theorem addAll_clausesOf (v : Value) (target : Target) :
    (on target : RuleWith π φ).addAll (clausesOf v) = {
      target
      len := (v.get? "len").map .ofValue
      empty := (v.get? "empty").map Value.countsAsTrue
      flags := ⟨(v.get? "required").bind Value.bool?, (v.get? "findFirst").bind Value.bool?,
        (v.get? "short").bind Value.bool?⟩
      checks := ∅
      wordings := wordingsOf v } := by
  have hwordings : (wordingsOf v).entries.foldl (fun t e => t.insert e.1 e.2) ∅ = (wordingsOf v : Table (Wording φ)) :=
    Table.ofList_entries _
  unfold clausesOf
  rw [addAll_append, addAll_append, addAll_append, addAll_len, addAll_empty,
    addAll_flags _ fun f => (v.get? f.key).bind Value.bool?, filterMap_wording, addAll_wordings]
  -- nothing was said before, so what is written is not mixed with anything older
  simp only [on, Flag.key, Option.or_none, Overrides.unset, Flags.all, hwordings]

/-! ## The whole -/

theorem ofValue_of_targetOf_error {v : Value} {fault : RuleFault} (hkind : v.kind = .object)
    (h : targetOf v = .error fault) : (ofValue v : Except _ (RuleWith π φ)) = .error fault := by
  cases v with
  | object ms =>
    simp only [ofValue, h]
    rfl
  | _ => cases hkind

theorem ofValue_of_targetOf_ok {v : Value} {target : Target} (h : targetOf v = .ok target) :
    (ofValue v : Except _ (RuleWith π φ)) = (flagsOf v).map fun flags => {
      target
      len := (v.get? "len").map .ofValue
      empty := (v.get? "empty").map Value.countsAsTrue
      flags
      checks := ∅
      wordings := wordingsOf v } := by
  cases v with
  | object ms =>
    simp only [ofValue, h, flagsOf]
    cases flagOf (.object ms) .required with
    | error fault => rfl
    | ok required =>
      cases flagOf (.object ms) .findFirst with
      | error fault => rfl
      | ok findFirst => cases flagOf (.object ms) .short <;> rfl
  | _ => cases h

theorem kind_of_get?_eq_some {v x : Value} {name : String} (h : v.get? name = some x) : v.kind = .object := by
  cases v with
  | object ms => rfl
  | _ => cases h

theorem ofValue_of_verdict {v : Value} {x : Except RuleFault (RuleWith π φ)} (h : Verdict v x) : ofValue v = x := by
  cases h with
  | notAnObject hkind =>
    cases v with
    | object ms => exact absurd rfl hkind
    | _ => rfl
  | noName hkind hname => exact ofValue_of_targetOf_error hkind (targetOf_of_none hname)
  | badName hname hbad =>
    exact ofValue_of_targetOf_error (kind_of_get?_eq_some hname) (targetOf_of_ne_toValue hname hbad)
  | badFlag hname horder hbefore hbad =>
    rw [ofValue_of_targetOf_ok (targetOf_of_toValue hname), flagsOf_eq_error horder hbefore hbad]
    rfl
  | rule hname hflags =>
    rw [ofValue_of_targetOf_ok (targetOf_of_toValue hname), flagsOf_eq_ok hflags, addAll_clausesOf]
    rfl

/-- **There is a verdict on every value.** -/
theorem exists_verdict (v : Value) : ∃ x : Except RuleFault (RuleWith π φ), Verdict v x := by
  by_cases hkind : v.kind = .object
  · cases hname : v.get? "name" with
    | none => exact ⟨_, .noName hkind hname⟩
    | some name =>
      by_cases htarget : ∃ target : Target, name = target.toValue
      · obtain ⟨target, rfl⟩ := htarget
        by_cases hflags : ∃ f found, FlagFault v f found
        · obtain ⟨f, found, hfault⟩ := hflags
          obtain ⟨before, g, after, k, horder, hbefore, hbad⟩ := exists_first_flagFault hfault
          exact ⟨_, .badFlag hname horder hbefore hbad⟩
        · exact ⟨_, .rule hname fun f k hfault => hflags ⟨f, k, hfault⟩⟩
      · exact ⟨_, .badName hname fun target htoValue => htarget ⟨target, htoValue⟩⟩
  · exact ⟨_, .notAnObject hkind⟩

theorem ofValue_eq_iff_verdict (v : Value) (x : Except RuleFault (RuleWith π φ)) : ofValue v = x ↔ Verdict v x := by
  refine ⟨fun h => ?_, ofValue_of_verdict⟩
  obtain ⟨y, hy⟩ := exists_verdict (π := π) (φ := φ) v
  have hxy : x = y := h.symm.trans (ofValue_of_verdict hy)
  exact hxy ▸ hy

theorem exists_of_ofValue_eq_ok {v : Value} {r : RuleWith π φ} (h : ofValue v = .ok r) :
    ∃ target, v.get? "name" = some target.toValue ∧ (∀ f k, ¬FlagFault v f k) ∧
      r = (on target).addAll (clausesOf v) := by
  cases (ofValue_eq_iff_verdict v _).1 h with
  | rule hname hflags => exact ⟨_, hname, hflags, rfl⟩

/-! ## What a written rule lacks -/

/-- The text that is written for a check: a string under its name, in an object under `msg`. -/
def writtenText? (v : Value) (check : String) : Option String :=
  ((v.get? "msg").bind (·.get? check)).bind Value.string?

theorem get?_wordingsOf (v : Value) (check : String) :
    (wordingsOf v : Table (Wording φ)).get? check = (writtenText? v check).map .fixed := by
  unfold wordingsOf writtenText?
  cases v.get? "msg" with
  | none => rfl
  | some messages =>
    simp only [Option.bind_some, Value.get?_eq_fields messages]
    cases messages.fields with
    | none => rfl
    | some ms =>
      simp only [Option.bind_some, Table.get?_filterMap]
      cases ms.get? check <;> rfl

theorem checks_of_ofValue {v : Value} {r : RuleWith π φ} (h : ofValue v = .ok r) : r.checks = ∅ := by
  obtain ⟨target, -, -, rfl⟩ := exists_of_ofValue_eq_ok h
  rw [addAll_clausesOf]

/-- **A written rule words its checks by texts, as they are written.** -/
theorem get?_wordings_of_ofValue {v : Value} {r : RuleWith π φ} (h : ofValue v = .ok r) (check : String) :
    r.wordings.get? check = (writtenText? v check).map .fixed := by
  obtain ⟨target, -, -, rfl⟩ := exists_of_ofValue_eq_ok h
  rw [addAll_clausesOf, get?_wordingsOf]

/-- **A value is read as its verdict says.**  It is a rule exactly when it has a target written under `name` and each
flag is a boolean, null or not there; the rule is then built from that target by the clauses that are written, with no
checks of its own.  A null under `len` is a bound that allows nothing, one under `empty` asks for what is not empty, and
one under a flag says nothing. -/
theorem ofValue_accepts_grammar :
    (∀ (v : Value) (x : Except RuleFault (RuleWith π φ)), ofValue v = x ↔ Verdict v x) ∧
    (∀ v : Value, (∃ r : RuleWith π φ, ofValue v = .ok r) ↔
      (∃ target : Target, v.get? "name" = some target.toValue) ∧ ∀ f k, ¬FlagFault v f k) ∧
    ∀ (v : Value) (r : RuleWith π φ), ofValue v = .ok r →
      v.get? "name" = some r.target.toValue ∧ r = (on r.target).addAll (clausesOf v) ∧ r.checks = ∅ ∧
      (v.get? "len" = some .null → r.len = some (.unusable .null)) ∧
      (v.get? "empty" = some .null → r.empty = some false) ∧
      ∀ f : Flag, v.get? f.key = some .null → r.flags.get f = none := by
  refine ⟨ofValue_eq_iff_verdict, fun v => ⟨?_, ?_⟩, fun v r h => ?_⟩
  · rintro ⟨r, hr⟩
    obtain ⟨target, hname, hflags, -⟩ := exists_of_ofValue_eq_ok hr
    exact ⟨⟨target, hname⟩, hflags⟩
  · rintro ⟨⟨target, hname⟩, hflags⟩
    exact ⟨_, ofValue_of_verdict (.rule hname hflags)⟩
  · obtain ⟨target, hname, -, rfl⟩ := exists_of_ofValue_eq_ok h
    rw [addAll_clausesOf]
    refine ⟨hname, (addAll_clausesOf v target).symm, rfl, fun hnull => ?_, fun hnull => ?_, fun f hnull => ?_⟩
    · rw [hnull]
      rfl
    · rw [hnull]
      rfl
    · cases f with
      | required => exact congrArg (Option.bind · Value.bool?) hnull
      | findFirst => exact congrArg (Option.bind · Value.bool?) hnull
      | short => exact congrArg (Option.bind · Value.bool?) hnull

/-- Nulls everywhere and a message that is no string; a fault of `short` behind one of `findFirst`. -/
theorem ofValue_accepts_grammar_nulls :
    let v : Value := .object [("name", .array [.string "from", .string "to"]), ("len", .null), ("empty", .null),
      ("required", .null), ("findFirst", .bool false), ("msg", .object [("empty", .null), ("len", .string "Odd")])]
    let w : Value := .object [("findFirst", .string "no"), ("name", .string "a"), ("short", .array [])]
    (∃ r : Rule, ofValue v = .ok r ∧ r.target = .group ["from", "to"] ∧ r.checks = ∅ ∧
      r.len = some (.unusable .null) ∧ r.empty = some false ∧ r.flags = ⟨none, some false, none⟩ ∧
      r.wordings.keys = ["len"]) ∧
    (ofValue w : Except _ Rule) = .error (.badFlag .findFirst .string) := by
  intro v w
  obtain ⟨hverdict, haccepts, hrule⟩ := ofValue_accepts_grammar (π := Predicate) (φ := Phrase)
  have hflags : ∀ f k, ¬FlagFault v f k := by
    rintro f k ⟨x, hx, rfl, hnull, hbool⟩
    cases f with
    | required => exact hnull (congrArg Value.kind (Option.some.inj hx)).symm
    | findFirst => exact hbool (congrArg Value.kind (Option.some.inj hx)).symm
    | short => cases hx
  obtain ⟨r, hr⟩ := (haccepts v).2 ⟨⟨.group ["from", "to"], rfl⟩, hflags⟩
  obtain ⟨-, -, hchecks, hlen, hempty, -⟩ := hrule v r hr
  refine ⟨⟨r, hr, ?_, hchecks, hlen rfl, hempty rfl, ?_, ?_⟩, ?_⟩
  · cases hr
    rfl
  · cases hr
    rfl
  · cases hr
    decide
  · have hname : w.get? "name" = some (Target.single "a").toValue := rfl
    have horder : Flag.order = [.required] ++ .findFirst :: [.short] := rfl
    refine (hverdict w _).2 (.badFlag hname horder ?_ ?_)
    · rintro g hg k ⟨x, hx, -⟩
      obtain rfl := List.mem_singleton.1 hg
      cases hx
    · exact ⟨.string "no", rfl, rfl, by decide, by decide⟩

end RuleWith
end FieldRules
