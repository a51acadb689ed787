import FieldRules.Proofs.Answers
import FieldRules.Proofs.Tables
/-!
# Clauses — what a rule says when all its clauses are added

Each clause is about one matter: the bound, emptiness, a flag, or the check or the wording of some name.  A rule that
clauses are added to holds on every matter what the last clause about it says, and what it held before where none does
(`lastSaid`, `lastUnder`); the order of clauses about different matters is lost.  All that is left of it is the order
in which names were first used: **checks stand as they were first added, behind those the rule had** (`newNames`).
-/
namespace FieldRules

/-! ## One clause -/

namespace Clause

variable {π φ : Type}

def len? : Clause π φ → Option LengthBound
  | .len bound => some bound
  | _ => none

def empty? : Clause π φ → Option Bool
  | .empty want => some want
  | _ => none

def flag? (f : Flag) : Clause π φ → Option Bool
  | .flag g on => if f = g then some on else none
  | _ => none

def check? : Clause π φ → Option (String × π)
  | .check name body => some (name, body)
  | _ => none

def wording? : Clause π φ → Option (String × Wording φ)
  | .wording name w => some (name, w)
  | _ => none

end Clause

section Last

variable {π φ α : Type}

/-- What the last of the clauses about a matter says. -/
def lastSaid (part : Clause π φ → Option α) (clauses : List (Clause π φ)) : Option α := clauses.reverse.findSome? part

/-- What the last of the clauses about a name says. -/
def lastUnder (part : Clause π φ → Option (String × α)) (name : String) (clauses : List (Clause π φ)) : Option α :=
  (clauses.filterMap part).reverse.lookup name

/-- The names that clauses bring in besides the known ones, each where it is first used. -/
def newNames (part : Clause π φ → Option (String × α)) (known : List String) (clauses : List (Clause π φ)) :
    List String :=
  (((clauses.filterMap part).map Prod.fst).filter fun k => !known.contains k).eraseDups

end Last

namespace RuleWith

section Parts

variable {π φ α : Type}

theorem len_add (r : RuleWith π φ) (c : Clause π φ) : (r.add c).len = c.len?.or r.len := by
  cases c <;> rfl

theorem empty_add (r : RuleWith π φ) (c : Clause π φ) : (r.add c).empty = c.empty?.or r.empty := by
  cases c <;> rfl

theorem get_flags_add (f : Flag) (r : RuleWith π φ) (c : Clause π φ) :
    (r.add c).flags.get f = (c.flag? f).or (r.flags.get f) := by
  cases c with
  | flag g on =>
    rw [add, Flags.get_set, Clause.flag?]
    split <;> rfl
  | _ => rfl

theorem checks_add (r : RuleWith π φ) (c : Clause π φ) :
    (r.add c).checks = c.check?.elim r.checks fun e => r.checks.insert e.1 e.2 := by
  cases c <;> rfl

theorem wordings_add (r : RuleWith π φ) (c : Clause π φ) :
    (r.add c).wordings = c.wording?.elim r.wordings fun e => r.wordings.insert e.1 e.2 := by
  cases c <;> rfl

/-! ## All clauses -/

theorem target_addAll (r : RuleWith π φ) (clauses : List (Clause π φ)) : (r.addAll clauses).target = r.target := by
  induction clauses generalizing r with
  | nil => rfl
  | cons c clauses ih => exact (ih (r.add c)).trans (r.target_add c)

/-- **A part that every clause overwrites with what it says of it holds what was last said of it.** -/
theorem part_addAll (held : RuleWith π φ → Option α) (part : Clause π φ → Option α)
    (h : ∀ r c, held (r.add c) = (part c).or (held r)) (r : RuleWith π φ) (clauses : List (Clause π φ)) :
    held (r.addAll clauses) = (lastSaid part clauses).or (held r) := by
  induction clauses generalizing r with
  | nil => rfl
  | cons c clauses ih =>
    have hlast : lastSaid part (c :: clauses) = (lastSaid part clauses).or (part c) := by
      rw [lastSaid, lastSaid, List.reverse_cons, List.findSome?_append]
      cases hc : part c <;> simp [hc]
    rw [hlast, Option.or_assoc, ← h]
    exact ih (r.add c)

/-- **A table into which every clause writes what it says of a name has been written by all of them.** -/
theorem table_addAll (held : RuleWith π φ → Table α) (part : Clause π φ → Option (String × α))
    (h : ∀ r c, held (r.add c) = (part c).elim (held r) fun e => (held r).insert e.1 e.2) (r : RuleWith π φ)
    (clauses : List (Clause π φ)) :
    held (r.addAll clauses) = (clauses.filterMap part).foldl (fun t e => t.insert e.1 e.2) (held r) := by
  induction clauses generalizing r with
  | nil => rfl
  | cons c clauses ih =>
    have hrest : held (r.addAll (c :: clauses))
        = (clauses.filterMap part).foldl (fun t e => t.insert e.1 e.2) (held (r.add c)) := ih (r.add c)
    rw [hrest, h, List.filterMap_cons]
    cases part c <;> rfl

/-- **Names stay where they are, and new ones come behind them.** -/
theorem keys_table_addAll (held : RuleWith π φ → Table α) (part : Clause π φ → Option (String × α))
    (h : ∀ r c, held (r.add c) = (part c).elim (held r) fun e => (held r).insert e.1 e.2) (r : RuleWith π φ)
    (clauses : List (Clause π φ)) :
    (held (r.addAll clauses)).keys = (held r).keys ++ newNames part (held r).keys clauses := by
  rw [table_addAll held part h, Table.keys_foldl_insert]
  rfl

theorem get?_table_addAll (held : RuleWith π φ → Table α) (part : Clause π φ → Option (String × α))
    (h : ∀ r c, held (r.add c) = (part c).elim (held r) fun e => (held r).insert e.1 e.2) (r : RuleWith π φ)
    (clauses : List (Clause π φ)) (name : String) :
    (held (r.addAll clauses)).get? name = (lastUnder part name clauses).or ((held r).get? name) := by
  rw [table_addAll held part h, Table.get?_foldl_insert]
  rfl

section Added

variable (r : RuleWith π φ) (clauses : List (Clause π φ))

theorem len_addAll : (r.addAll clauses).len = (lastSaid Clause.len? clauses).or r.len :=
  part_addAll RuleWith.len Clause.len? len_add r clauses

theorem empty_addAll : (r.addAll clauses).empty = (lastSaid Clause.empty? clauses).or r.empty :=
  part_addAll RuleWith.empty Clause.empty? empty_add r clauses

theorem get_flags_addAll (f : Flag) :
    (r.addAll clauses).flags.get f = (lastSaid (Clause.flag? f) clauses).or (r.flags.get f) :=
  part_addAll (fun r => r.flags.get f) (Clause.flag? f) (get_flags_add f) r clauses

theorem keys_checks_addAll :
    (r.addAll clauses).checks.keys = r.checks.keys ++ newNames Clause.check? r.checks.keys clauses :=
  keys_table_addAll RuleWith.checks Clause.check? checks_add r clauses

theorem get?_checks_addAll (name : String) :
    (r.addAll clauses).checks.get? name = (lastUnder Clause.check? name clauses).or (r.checks.get? name) :=
  get?_table_addAll RuleWith.checks Clause.check? checks_add r clauses name

theorem keys_wordings_addAll :
    (r.addAll clauses).wordings.keys = r.wordings.keys ++ newNames Clause.wording? r.wordings.keys clauses :=
  keys_table_addAll RuleWith.wordings Clause.wording? wordings_add r clauses

theorem get?_wordings_addAll (check : String) :
    (r.addAll clauses).wordings.get? check = (lastUnder Clause.wording? check clauses).or (r.wordings.get? check) :=
  get?_table_addAll RuleWith.wordings Clause.wording? wordings_add r clauses check

end Added

theorem ext_parts {r s : RuleWith π φ} (htarget : r.target = s.target) (hlen : r.len = s.len)
    (hempty : r.empty = s.empty) (hflags : r.flags = s.flags) (hchecks : r.checks = s.checks)
    (hwordings : r.wordings = s.wordings) : r = s := by
  cases r
  cases s
  simp_all

end Parts

/-! ## The checks that come of it -/

/-- First the parameters that are set, whenever that was, and then the checks of the rule's own. -/
theorem listed_eq (r : Rule) :
    r.listed = (if r.len.isSome then [.parameter .len] else []) ++ (if r.empty.isSome then [.parameter .empty] else [])
      ++ r.checks.entries.map fun e => .own e.1 e.2 := by
  have hparameters : (Parameter.all.filter (Parameter.isSet r)).map Check.parameter
      = (if r.len.isSome then [.parameter .len] else []) ++ (if r.empty.isSome then [.parameter .empty] else []) := by
    cases hlen : r.len <;> cases hempty : r.empty <;> simp [Parameter.all, Parameter.isSet, hlen, hempty]
  rw [listed, hparameters]

/-- Clauses that say the same last on every matter, and that bring in new checks in the same order. -/
structure SayAlike (r : Rule) (cs ds : List (Clause Predicate Phrase)) : Prop where
  len : lastSaid Clause.len? cs = lastSaid Clause.len? ds
  empty : lastSaid Clause.empty? cs = lastSaid Clause.empty? ds
  flag : ∀ f, lastSaid (Clause.flag? f) cs = lastSaid (Clause.flag? f) ds
  check : ∀ name, lastUnder Clause.check? name cs = lastUnder Clause.check? name ds
  wording : ∀ check, lastUnder Clause.wording? check cs = lastUnder Clause.wording? check ds
  order : newNames Clause.check? r.checks.keys cs = newNames Clause.check? r.checks.keys ds

section Alike

variable {r : Rule} {cs ds : List (Clause Predicate Phrase)}

theorem sameFrame_of_sayAlike (h : r.SayAlike cs ds) : (r.addAll cs).SameFrame (r.addAll ds) where
  target := by rw [target_addAll, target_addAll]
  len := by rw [len_addAll, len_addAll, h.len]
  empty := by rw [empty_addAll, empty_addAll, h.empty]

theorem checks_eq_of_sayAlike (h : r.SayAlike cs ds) : (r.addAll cs).checks = (r.addAll ds).checks :=
  Table.ext_get? (by rw [keys_checks_addAll, keys_checks_addAll, h.order])
    fun name => by rw [get?_checks_addAll, get?_checks_addAll, h.check]

theorem get?_wordings_eq_of_sayAlike (h : r.SayAlike cs ds) (check : String) :
    (r.addAll cs).wordings.get? check = (r.addAll ds).wordings.get? check := by
  rw [get?_wordings_addAll, get?_wordings_addAll, h.wording]

theorem flags_eq_of_sayAlike (h : r.SayAlike cs ds) : (r.addAll cs).flags = (r.addAll ds).flags := by
  refine Flags.ext_get fun f => ?_
  rw [get_flags_addAll, get_flags_addAll, h.flag]

theorem listed_eq_of_sayAlike (h : r.SayAlike cs ds) : (r.addAll cs).listed = (r.addAll ds).listed := by
  have hframe := sameFrame_of_sayAlike h
  rw [listed_eq, listed_eq, hframe.len, hframe.empty, checks_eq_of_sayAlike h]

theorem addAll_eq_of_sayAlike (h : r.SayAlike cs ds)
    (horder : newNames Clause.wording? r.wordings.keys cs = newNames Clause.wording? r.wordings.keys ds) :
    r.addAll cs = r.addAll ds := by
  have hframe := sameFrame_of_sayAlike h
  have hwordings : (r.addAll cs).wordings = (r.addAll ds).wordings :=
    Table.ext_get? (by rw [keys_wordings_addAll, keys_wordings_addAll, horder])
      (get?_wordings_eq_of_sayAlike h)
  exact ext_parts hframe.target.symm hframe.len.symm hframe.empty.symm (flags_eq_of_sayAlike h)
    (checks_eq_of_sayAlike h) hwordings

theorem judge_eq_of_sayAlike (h : r.SayAlike cs ds) {seen : Observed}
    (hchecks : (r.addAll cs).ChecksAnswerOn (r.addAll ds).outline seen)
    (hphrases : ∀ check, (r.addAll cs).PhraseAnswersOn (r.addAll ds).outline seen check) (o : Settings) :
    (r.addAll cs).judge seen o = (r.addAll ds).judge seen o := by
  rw [judge_eq_ofComplaints, judge_eq_ofComplaints,
    complaints_eq_of_answers (sameFrame_of_sayAlike h) (listed_eq_of_sayAlike h).symm
      (fun check => (get?_wordings_eq_of_sayAlike h check).symm) hchecks hphrases]

end Alike

/-- **A rule is known by its start and by what was last said.**  However many clauses are added to a rule and in
whatever order, the target stays; bound, emptiness and flags are as the last clause about them says; checks and
wordings stand as they were first added, behind those that were there, and each is the one that was added last.  The
parameters run before the checks of the rule's own, whenever they were set.  Clauses that say the same last and bring
checks in the same order therefore give the same checks; they give the same rule if wordings too come in the same order,
and the same judgement of any value on which no body minds that order. -/
theorem addAll_normal_form (r : Rule) (cs : List (Clause Predicate Phrase)) :
    (r.addAll cs).target = r.target ∧
    (r.addAll cs).len = (lastSaid Clause.len? cs).or r.len ∧
    (r.addAll cs).empty = (lastSaid Clause.empty? cs).or r.empty ∧
    (∀ f, (r.addAll cs).flags.get f = (lastSaid (Clause.flag? f) cs).or (r.flags.get f)) ∧
    (r.addAll cs).checks.keys = r.checks.keys ++ newNames Clause.check? r.checks.keys cs ∧
    (∀ name, (r.addAll cs).checks.get? name = (lastUnder Clause.check? name cs).or (r.checks.get? name)) ∧
    (r.addAll cs).wordings.keys = r.wordings.keys ++ newNames Clause.wording? r.wordings.keys cs ∧
    (∀ check, (r.addAll cs).wordings.get? check = (lastUnder Clause.wording? check cs).or (r.wordings.get? check)) ∧
    (r.addAll cs).listed =
      (if (r.addAll cs).len.isSome then [.parameter .len] else [])
        ++ (if (r.addAll cs).empty.isSome then [.parameter .empty] else [])
        ++ (r.addAll cs).checks.entries.map (fun e => .own e.1 e.2) ∧
    ∀ ds, r.SayAlike cs ds →
      (r.addAll cs).listed = (r.addAll ds).listed ∧
      (newNames Clause.wording? r.wordings.keys cs = newNames Clause.wording? r.wordings.keys ds →
        r.addAll cs = r.addAll ds) ∧
      ∀ seen, (r.addAll cs).ChecksAnswerOn (r.addAll ds).outline seen →
        (∀ check, (r.addAll cs).PhraseAnswersOn (r.addAll ds).outline seen check) →
        ∀ o, (r.addAll cs).judge seen o = (r.addAll ds).judge seen o :=
  ⟨target_addAll r cs, len_addAll r cs, empty_addAll r cs, get_flags_addAll r cs, keys_checks_addAll r cs,
    get?_checks_addAll r cs, keys_wordings_addAll r cs, get?_wordings_addAll r cs, listed_eq (r.addAll cs),
    fun _ h => ⟨listed_eq_of_sayAlike h, addAll_eq_of_sayAlike h, fun _ hchecks hphrases o =>
      judge_eq_of_sayAlike h hchecks hphrases o⟩⟩

/-- The rule starts with a check `a`, which is given another body.  Backwards, the second list leads to the same rule;
as it stands, it differs from that in the order of its wordings, which the bodies do not look at. -/
theorem addAll_normal_form_two_ways :
    let r : Rule := (on (.single "nick")).add (.check "a" fun _ _ => true)
    let tooLong : Predicate := fun seen outline => seen.length? == some 3 && outline.len.isNone
    let cs : List (Clause Predicate Phrase) := [.check "b" fun _ _ => true, .len (.atLeast 3), .check "a" tooLong,
      .wording "b" (.fixed "B"), .flag .short true, .wording "a" (.computed fun _ outline => outline.target.text),
      .check "b" fun _ _ => false, .len (.within 4 9), .flag .short false]
    let ds : List (Clause Predicate Phrase) := [.flag .short false, .len (.within 4 9), .check "a" tooLong,
      .wording "a" (.computed fun _ outline => outline.target.text), .check "b" fun _ _ => false,
      .wording "b" (.fixed "B")]
    let seen : Observed := .single (.string "3xt")
    (∀ es ∈ [ds, ds.reverse], r.SayAlike cs es ∧ (r.addAll cs).listed = (r.addAll es).listed) ∧
      (r.addAll cs).listed.map Check.name = ["len", "a", "b"] ∧
      newNames Clause.wording? r.wordings.keys cs = newNames Clause.wording? r.wordings.keys ds.reverse ∧
      r.addAll cs = r.addAll ds.reverse ∧
      (r.addAll cs).ChecksAnswerOn (r.addAll ds).outline seen ∧
      (∀ check, (r.addAll cs).PhraseAnswersOn (r.addAll ds).outline seen check) ∧
      ∀ o, (r.addAll cs).judge seen o = (r.addAll ds).judge seen o := by
  intro r tooLong cs ds seen
  have halike : ∀ es ∈ [ds, ds.reverse], r.SayAlike cs es := by
    intro es hes
    obtain rfl | rfl := List.mem_pair.1 hes
    all_goals refine ⟨rfl, rfl, fun f => by cases f <;> rfl, fun name => ?_, fun name => ?_, by decide⟩
    all_goals
      by_cases ha : name = "a"
      · rw [ha]; rfl
      by_cases hb : name = "b"
      · rw [hb]; rfl
      simp [lastUnder, cs, ds, Clause.check?, Clause.wording?, List.filterMap_cons, Table.lookup_cons_eq, ha, hb]
  have hchecks : (r.addAll cs).ChecksAnswerOn (r.addAll ds).outline seen := by
    intro e he
    obtain rfl | rfl : e = ("a", tooLong) ∨ e = ("b", fun _ _ => false) := List.mem_pair.1 he
    · rfl
    · rfl
  have hphrases : ∀ check, (r.addAll cs).PhraseAnswersOn (r.addAll ds).outline seen check := by
    intro check body hw
    obtain h | h := List.mem_pair.1 (((r.addAll cs).wordings.get?_eq_some_iff check (.computed body)).1 hw)
    · cases h
    · cases h
      rfl
  have horder : newNames Clause.wording? r.wordings.keys cs = newNames Clause.wording? r.wordings.keys ds.reverse := by
    decide
  obtain ⟨-, -, -, -, -, -, -, -, -, hsame⟩ := addAll_normal_form r cs
  have hds := halike ds (by simp)
  have hreverse := halike ds.reverse (by simp)
  exact ⟨fun es hes => ⟨halike es hes, (hsame es (halike es hes)).1⟩, by decide, horder,
    (hsame ds.reverse hreverse).2.1 horder, hchecks, hphrases, (hsame ds hds).2.2 seen hchecks hphrases⟩

end RuleWith
end FieldRules
