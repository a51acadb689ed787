import FieldRules.Value
import FieldRules.Flags
/-!
# Fault — why a value is no rule

What can be wrong with a written rule, and with a written list of rules.  A list is refused as a whole for its first
bad entry, and the fault then holds the place of the entry and what is wrong with it.
-/
namespace FieldRules

inductive RuleFault where
  | notAnObject (found : Kind)
  | noName
  | badName
  | badFlag (flag : Flag) (found : Kind)
  deriving DecidableEq

def RuleFault.text : RuleFault → String
  | .notAnObject found => "expected a rule object, got " ++ found.name
  | .noName => "rule has no `name`"
  | .badName => "rule `name` must be a string or a list of strings"
  | .badFlag flag found => "option `" ++ flag.key ++ "` must be a boolean, got " ++ found.name

inductive RulesFault where
  | notRules (found : Kind)
  | rule (fault : RuleFault)
  | entry (index : Nat) (fault : RuleFault)
  deriving DecidableEq

def RulesFault.text : RulesFault → String
  | .notRules found => "expected a rule object or a list of rule objects, got " ++ found.name
  | .rule fault => fault.text
  | .entry index fault => "rule #" ++ Nat.repr index ++ " is invalid: " ++ fault.text

/-- What is behind a fault: the fault of the entry that a list is refused for.  Every other fault stands for itself. -/
def RulesFault.source? : RulesFault → Option RulesFault
  | .entry _ fault => some (.rule fault)
  | _ => none

end FieldRules
