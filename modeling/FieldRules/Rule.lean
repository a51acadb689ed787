import FieldRules.Target
import FieldRules.LengthBound
import FieldRules.Flags
/-!
# Rule — what to check on which field, and how to say it

A rule aims at its target and carries clauses: a bound on the length, whether the value is to be empty, settings of the
flags, checks of the caller's own and wordings for messages.  A check and a computed message see the observed value
*and* the rule they belong to.  What they see of the rule is its outline: everything but the bodies of its checks and
computed messages.  `RuleWith` is a rule over whatever stands for those bodies, so that the outline is a rule too, with
nothing in their place.

**Clauses are added one after the other and the last one on a matter holds.**  A check that is named again keeps its
place among the checks and gets the new body.
-/
namespace FieldRules

/-- The text of a message, or the way to work it out. -/
inductive Wording (φ : Type) where
  | fixed (text : String)
  | computed (body : φ)

def Wording.map {φ ψ : Type} (f : φ → ψ) : Wording φ → Wording ψ
  | .fixed text => .fixed text
  | .computed body => .computed (f body)

/-- A rule with checks in `π` and computed messages in `φ`. -/
structure RuleWith (π φ : Type) where
  target : Target
  len : Option LengthBound
  empty : Option Bool
  flags : Overrides
  checks : Table π
  wordings : Table (Wording φ)

/-- One thing that a rule can say. -/
inductive Clause (π φ : Type) where
  | len (bound : LengthBound)
  | empty (want : Bool)
  | flag (f : Flag) (on : Bool)
  | check (name : String) (body : π)
  | wording (check : String) (w : Wording φ)

namespace RuleWith

variable {π φ : Type}

/-- A rule that says nothing yet. -/
def on (target : Target) : RuleWith π φ where
  target := target
  len := none
  empty := none
  flags := .unset
  checks := ∅
  wordings := ∅

def add (r : RuleWith π φ) : Clause π φ → RuleWith π φ
  | .len bound => { r with len := some bound }
  | .empty want => { r with empty := some want }
  | .flag f on => { r with flags := r.flags.set f (some on) }
  | .check name body => { r with checks := r.checks.insert name body }
  | .wording check w => { r with wordings := r.wordings.insert check w }

def addAll (r : RuleWith π φ) (clauses : List (Clause π φ)) : RuleWith π φ := clauses.foldl add r

@[simp] theorem target_add (r : RuleWith π φ) (c : Clause π φ) : (r.add c).target = r.target := by
  cases c <;> rfl

end RuleWith

/-- What a check or a computed message sees of its rule. -/
abbrev Outline := RuleWith Unit Unit

def RuleWith.outline {π φ : Type} (r : RuleWith π φ) : Outline where
  target := r.target
  len := r.len
  empty := r.empty
  flags := r.flags
  checks := r.checks.map fun _ => ()
  wordings := r.wordings.map (Wording.map fun _ => ())

/-- A check of the caller's own: whether the value passes. -/
abbrev Predicate := Observed → Outline → Bool

abbrev Phrase := Observed → Outline → String

abbrev Rule := RuleWith Predicate Phrase

end FieldRules
