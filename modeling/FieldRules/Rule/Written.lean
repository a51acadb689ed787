import FieldRules.Rule
import FieldRules.Rule.Fault
/-!
# Written — rules as values

A rule is written as an object: its field or fields under `name`, the parameters under `len` and `empty`, the flags
under their names, and wordings under `msg`.  The name and then the flags are read in order, and **the first of them
that is not well-formed is the fault**.  The parameters are never at fault: any value is a bound, if need be one that
allows nothing, and any value counts as true or as false.  Checks of the rule's own cannot be written.
-/
namespace FieldRules

/-- A name, or a list of nothing but names. -/
def Target.ofValue? : Value → Option Target
  | .string name => some (.single name)
  | .array items => (items.mapM Value.string?).map Target.group
  | _ => none

namespace RuleWith

variable {π φ : Type}

def targetOf (v : Value) : Except RuleFault Target :=
  match v.get? "name" with
  | none => .error .noName
  | some name =>
    match Target.ofValue? name with
    | some target => .ok target
    | none => .error .badName

/-- Null leaves a flag open, as its absence does. -/
def flagOf (v : Value) (f : Flag) : Except RuleFault (Option Bool) :=
  match v.get? f.key with
  | none => .ok none
  | some .null => .ok none
  | some (.bool b) => .ok (some b)
  | some found => .error (.badFlag f found.kind)

/-- The members of `msg` that are strings.  A `msg` that is no object words nothing. -/
def wordingsOf (v : Value) : Table (Wording φ) :=
  match (v.get? "msg").bind Value.fields with
  | some messages => messages.filterMap fun m => m.string?.map .fixed
  | none => ∅

def ofValue (v : Value) : Except RuleFault (RuleWith π φ) :=
  match v with
  | .object _ => do
    let target ← targetOf v
    let required ← flagOf v .required
    let findFirst ← flagOf v .findFirst
    let short ← flagOf v .short
    return {
      target
      len := (v.get? "len").map .ofValue
      empty := (v.get? "empty").map Value.countsAsTrue
      flags := ⟨required, findFirst, short⟩
      checks := ∅
      wordings := wordingsOf v }
  | v => .error (.notAnObject v.kind)

/-! ## Lists of rules -/

/-- Every entry as a rule, the first of them in place `index`. -/
def entriesOf (index : Nat) : List Value → Except RulesFault (List (RuleWith π φ))
  | [] => .ok []
  | v :: rest =>
    match ofValue v with
    | .error fault => .error (.entry index fault)
    | .ok r => (entriesOf (index + 1) rest).map (r :: ·)

/-- One rule, or a list of rules. -/
def listOfValue (v : Value) : Except RulesFault (List (RuleWith π φ)) :=
  match v with
  | .object ms =>
    match ofValue (.object ms) with
    | .error fault => .error (.rule fault)
    | .ok r => .ok [r]
  | .array items => entriesOf 0 items
  | v => .error (.notRules v.kind)

end RuleWith
end FieldRules
