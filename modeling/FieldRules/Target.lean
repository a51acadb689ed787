import FieldRules.Value
/-!
# Target — the fields a rule aims at, and what is seen there

A rule never sees a whole subject.  It aims at one field, or at a group of fields that are judged together, and sees
what stands under those names: nothing, one value, or one slot a name with absent members left open.

**A group is never missing**, however many of its members are; it has a length, the number of its names, and it is
empty only when it has none.
-/
namespace FieldRules

/-- The field or fields a rule aims at.  A failure is put down under every one of its names. -/
inductive Target where
  | single (name : String)
  | group (names : List String)
  deriving DecidableEq

namespace Target

def names : Target → List String
  | .single name => [name]
  | .group names => names

def isGroup : Target → Bool
  | .single _ => false
  | .group _ => true

/-- A field by its name, a group by its names in brackets. -/
def text : Target → String
  | .single name => name
  | .group names => "[" ++ ",".intercalate names ++ "]"

end Target

/-! ## What is seen -/

inductive Observed where
  | missing
  | single (v : Value)
  | group (slots : List (Option Value))

namespace Observed

def isMissing : Observed → Bool
  | .missing => true
  | _ => false

def value? : Observed → Option Value
  | .single v => some v
  | _ => none

def string? (seen : Observed) : Option String := seen.value?.bind Value.string?

/-- The slots of a group; nothing else has any. -/
def slots : Observed → List (Option Value)
  | .group slots => slots
  | _ => []

/-- What stands in slot `i`, if the slot is there and filled. -/
def slot? (seen : Observed) (i : Nat) : Option Value := (seen.slots[i]?).join

def isEmpty : Observed → Bool
  | .missing => true
  | .single v => v.isEmpty
  | .group slots => slots.isEmpty

/-- Strings are measured in characters, arrays in elements and groups in slots; nothing else has a length. -/
def length? : Observed → Option Nat
  | .single (.string s) => some s.length
  | .single (.array items) => some items.length
  | .group slots => some slots.length
  | _ => none

end Observed

/-! ## Looking -/

/-- The value under `name`, in a subject that may itself be absent. -/
def lookUp (subject : Option Value) (name : String) : Option Value := subject.bind (·.get? name)

def Target.observe (target : Target) (subject : Option Value) : Observed :=
  match target with
  | .single name => (lookUp subject name).elim .missing .single
  | .group names => .group (names.map (lookUp subject))

theorem Target.length?_observe_group (names : List String) (subject : Option Value) :
    (Target.observe (.group names) subject).length? = some names.length := by
  simp [Target.observe, Observed.length?]

theorem Target.isEmpty_observe_group (names : List String) (subject : Option Value) :
    (Target.observe (.group names) subject).isEmpty = names.isEmpty := by
  simp [Target.observe, Observed.isEmpty]

end FieldRules
