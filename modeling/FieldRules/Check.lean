import FieldRules.Rule
/-!
# Check — the checks of a rule, in the order they run

First the checks that a parameter of the rule switches on, `len` before `empty`; then the rule's own checks, in the
order they were first added.  **A parameter that the rule does not set is not in the list**, so that its check can
neither pass nor fail.  A check of the rule's own may bear a parameter's name; it then runs besides it.
-/
namespace FieldRules

/-- The parameters that bring a check of their own. -/
inductive Parameter where
  | len
  | empty
  deriving DecidableEq

namespace Parameter

def name : Parameter → String
  | .len => "len"
  | .empty => "empty"

def all : List Parameter := [.len, .empty]

variable {π φ : Type}

def isSet (r : RuleWith π φ) : Parameter → Bool
  | .len => r.len.isSome
  | .empty => r.empty.isSome

/-- A length passes when there is a bound and a length and the one allows the other; emptiness passes when it is as
the rule wants it. -/
def passes (seen : Observed) (r : RuleWith π φ) : Parameter → Bool
  | .len =>
    match r.len, seen.length? with
    | some bound, some length => bound.allows length
    | _, _ => false
  | .empty => seen.isEmpty == r.empty.getD false

end Parameter

inductive Check where
  | parameter (p : Parameter)
  | own (name : String) (body : Predicate)

namespace Check

def name : Check → String
  | .parameter p => p.name
  | .own name _ => name

def isOwn : Check → Bool
  | .parameter _ => false
  | .own _ _ => true

def passes (seen : Observed) (r : Rule) : Check → Bool
  | .parameter p => p.passes seen r
  | .own _ body => body seen r.outline

end Check

namespace RuleWith

def listed (r : Rule) : List Check :=
  (Parameter.all.filter (Parameter.isSet r)).map .parameter ++ r.checks.entries.map fun e => .own e.1 e.2

end RuleWith
end FieldRules
