import FieldRules.Validation
/-!
# Session — rules, flags and a subject edited step by step

A session keeps a list of rules, the flags of the call and a subject, and validates the one against the other whenever
it is asked.  **A command that fails changes nothing.**
-/
namespace FieldRules

/-- Where a rule starts from: a target, or a value that is read as a rule. -/
inductive RuleSource where
  | target (target : Target)
  | written (v : Value)

/-- A rule as a start and the clauses added to it. -/
structure RuleSpec where
  source : RuleSource
  clauses : List (Clause Predicate Phrase)

namespace RuleSpec

def start : RuleSource → Except RuleFault Rule
  | .target target => .ok (RuleWith.on target)
  | .written v => RuleWith.ofValue v

def build (spec : RuleSpec) : Except RuleFault Rule :=
  (start spec.source).map (·.addAll spec.clauses)

end RuleSpec

structure Session where
  rules : List Rule
  call : Overrides
  subject : Option Value

namespace Session

def empty : Session := ⟨[], .unset, none⟩

inductive Command where
  | add (spec : RuleSpec)
  | load (v : Value)
  | loadLenient (v : Value)
  | extend (i : Nat) (clause : Clause Predicate Phrase)
  | remove (i : Nat)
  | reverse
  | flag (f : Flag) (on : Bool)
  | flags (v : Value)
  | subject (v : Option Value)
  | put (name : String) (v : Value)
  | erase (name : String)

/-- Why a command failed. -/
inductive Error where
  | rule (fault : RuleFault)
  | rules (fault : RulesFault)
  | badFlags

/-- A place beyond the rules names none of them. -/
def run (s : Session) : Command → Except Error Session
  | .add spec =>
    match spec.build with
    | .ok r => .ok { s with rules := s.rules ++ [r] }
    | .error fault => .error (.rule fault)
  | .load v =>
    match RuleWith.listOfValue v with
    | .ok rules => .ok { s with rules := rules }
    | .error fault => .error (.rules fault)
  | .loadLenient v => .ok { s with rules := (Rulebook.ofValue v).toList }
  | .extend i clause => .ok { s with rules := s.rules.modify i (·.add clause) }
  | .remove i => .ok { s with rules := s.rules.eraseIdx i }
  | .reverse => .ok { s with rules := s.rules.reverse }
  | .flag f on => .ok { s with call := s.call.set f (some on) }
  | .flags v =>
    match Overrides.ofValue? v with
    | some call => .ok { s with call := call }
    | none => .error .badFlags
  | .subject v => .ok { s with subject := v }
  | .put name v => .ok { s with subject := some ((s.subject.getD (.object [])).put name v) }
  | .erase name => .ok { s with subject := s.subject.map (·.erase name) }

def report (s : Session) : Report := validate s.subject s.rules s.call

end Session
end FieldRules
