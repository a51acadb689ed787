import FieldRules.Rule.Wording
import FieldRules.Failure
import FieldRules.Flags
/-!
# Judgement — one rule against what it sees

**Presence decides first.**  A missing field fails when it is required and passes otherwise, and a required group with
an absent member fails, before any check is run.  Such a failure is worded under `required` or `arrayMiss` and put down
under `isRequired`.

Only then do the checks run, from the left.  A short report ends with the message of the first one that fails; otherwise
the messages are collected by the names of their checks, no further than the first when one is enough.
-/
namespace FieldRules

/-- What presence alone decides: that the value passes, that it fails for the named reason, or nothing. -/
inductive Presence where
  | excused
  | absent (reason : String)
  | present
  deriving DecidableEq

namespace Presence

/-- The name under which an absence is put down. -/
def isRequired : String := "isRequired"

def judge (target : Target) (required : Bool) (seen : Observed) : Presence :=
  if seen.isMissing then
    if required then .absent Wording.required else .excused
  else if required && target.isGroup && seen.slots.any Option.isNone then .absent Wording.arrayMiss
  else .present

end Presence

namespace RuleWith

/-- How an absence is put down. -/
def absence (r : Rule) (reason : String) (seen : Observed) (o : Settings) : Failure :=
  if o.short then .bare (r.message reason seen)
  else .byCheck (.ofList [(Presence.isRequired, r.message reason seen)])

/-- Runs checks on top of the messages collected so far. -/
def run (r : Rule) (seen : Observed) (o : Settings) (messages : Table String) : List Check → Option Failure
  | [] => Failure.collected messages
  | c :: rest =>
    if c.passes seen r then r.run seen o messages rest
    else if o.short then some (.bare (r.message c.name seen))
    else
      let messages := messages.insert c.name (r.message c.name seen)
      if o.findFirst then Failure.collected messages else r.run seen o messages rest

/-- The flags of the rule itself play no part here: they are settled before. -/
def judge (r : Rule) (seen : Observed) (o : Settings) : Option Failure :=
  match Presence.judge r.target o.required seen with
  | .excused => none
  | .absent reason => some (r.absence reason seen o)
  | .present => r.run seen o ∅ r.listed

end RuleWith
end FieldRules
