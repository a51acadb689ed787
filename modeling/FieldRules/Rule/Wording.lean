import FieldRules.Check
/-!
# Wording — what is said of a failed check

A message is looked for in three places: the rule's own wording for the check, the default wording of the check, and
last a text that names no cause.  Four names have a default: the two parameters `len` and `empty`, and `required` and
`arrayMiss`, under which an absent field and a group with absent members are worded.  **The default for a length says
what the bound asks for and what was there**; the one for a group lists the absent names.
-/
namespace FieldRules
namespace Wording

def required : String := "required"

def arrayMiss : String := "arrayMiss"

def fallback : String := "Error"

def expected : Option LengthBound → String
  | some (.atLeast n) => "Expected min " ++ Nat.repr n.toNat ++ " symbols."
  | some (.within lo hi) => "Expected [" ++ Nat.repr lo.toNat ++ "," ++ Nat.repr hi.toNat ++ "] symbols."
  | some (.unusable _) => "Invalid len."
  | none => "Invalid len."

def given : Option Nat → String
  | some length => Nat.repr length
  | none => "n/a"

/-- The names whose slot is open.  A single field stands for itself. -/
def absentNames (target : Target) (seen : Observed) : List String :=
  match target with
  | .single name => [name]
  | .group names => ((names.zip seen.slots).filter fun p => p.2.isNone).map Prod.fst

def default? {π φ : Type} (check : String) (seen : Observed) (r : RuleWith π φ) : Option String :=
  if check = required then some "Is required"
  else if check = arrayMiss then some ("Is required [" ++ ",".intercalate (absentNames r.target seen) ++ "]")
  else if check = Parameter.len.name then some (expected r.len ++ " Given: " ++ given seen.length?)
  else if check = Parameter.empty.name then some "Is empty"
  else none

def render (seen : Observed) (outline : Outline) : Wording Phrase → String
  | .fixed text => text
  | .computed body => body seen outline

end Wording

/-- **The rule's own wording, else the default, else the fallback.** -/
def RuleWith.message (r : Rule) (check : String) (seen : Observed) : String :=
  match r.wordings.get? check with
  | some w => w.render seen r.outline
  | none => (Wording.default? check seen r).getD Wording.fallback

end FieldRules
