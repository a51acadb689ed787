import FieldRules.Judgement
import FieldRules.Report
import FieldRules.Rule.Written
/-!
# Validation — a subject against rules

Every rule in turn looks its own target up, settles its own flags and is judged by itself; a failure is put down under
every name of the target, on top of what the rules before it put down.
-/
namespace FieldRules

namespace RuleWith

/-- What a rule finds wrong with a subject, if anything. -/
def failure? (r : Rule) (subject : Option Value) (call : Overrides) : Option Failure :=
  r.judge (r.target.observe subject) (Settings.settle r.flags call)

def turn (subject : Option Value) (call : Overrides) (report : Report) (r : Rule) : Report :=
  match r.failure? subject call with
  | none => report
  | some failure => report.record r.target failure

end RuleWith

def validate (subject : Option Value) (rules : List Rule) (call : Overrides) : Report :=
  rules.foldl (RuleWith.turn subject call) ∅

/-! ## Rules that need not be rules -/

/-- Rules as they come: as such, or read from a value that may not hold any. -/
inductive Rulebook where
  | rules (items : List Rule)
  | malformed

namespace Rulebook

/-- **One bad entry and there are no rules at all.** -/
def ofValue (v : Value) : Rulebook :=
  match RuleWith.listOfValue v with
  | .ok items => .rules items
  | .error _ => .malformed

def toList : Rulebook → List Rule
  | .rules items => items
  | .malformed => []

def isMalformed : Rulebook → Bool
  | .rules _ => false
  | .malformed => true

/-- Malformed rules find nothing wrong, and a call without flags leaves every one of them open. -/
def validate (book : Rulebook) (subject : Option Value) (call : Option Overrides) : Report :=
  FieldRules.validate subject book.toList (call.getD .unset)

end Rulebook
end FieldRules
