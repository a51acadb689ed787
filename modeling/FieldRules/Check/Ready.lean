import FieldRules.Check
import FieldRules.Value.Canonical
import FieldRules.Text.Decimal
import FieldRules.Text.LowerCase
import FieldRules.Text.Email
/-!
# Ready — ready-made checks

Tests on strings and values, and checks made of them.  A check on a string passes only where there is a string, a check
on a slot only where it is filled.  Checks combine: **all of no checks pass, and none of them does**.
-/
namespace FieldRules

/-- A whole number, or a string that writes one. -/
def Value.isInteger : Value → Bool
  | .int _ => true
  | .string s => Text.isInteger s
  | _ => false

/-- At least `least` characters and, if there is a limit, at most `most`. -/
def Text.hasLength (least : Nat) (most : Option Nat) (s : String) : Bool :=
  least ≤ s.length && most.all (s.length ≤ ·)

namespace Predicate

def const (b : Bool) : Predicate := fun _ _ => b

def onString (test : String → Bool) : Predicate := fun seen _ => seen.string?.any test

def onValue (test : Value → Bool) : Predicate := fun seen _ => seen.value?.any test

def email : Predicate := onString Text.isEmail

def upperCase : Predicate := onString Text.isUpperCase

def length (least : Nat) (most : Option Nat) : Predicate := onString (Text.hasLength least most)

def integer : Predicate := onValue Value.isInteger

def countsAsTrue : Predicate := onValue Value.countsAsTrue

def equals (v : Value) : Predicate := onValue (·.equal v)

def isEmpty : Predicate := fun seen _ => seen.isEmpty

def isMissing : Predicate := fun seen _ => seen.isMissing

/-! ## On groups -/

/-- What stands in slot `i` as a number with a sign, if it is one. -/
def signedSlot? (seen : Observed) (i : Nat) : Option Int :=
  match seen.slot? i with
  | some (.int n) => n.signed?
  | _ => none

def ascending : Predicate := fun seen _ =>
  match signedSlot? seen 0, signedSlot? seen 1 with
  | some a, some b => a < b
  | _, _ => false

/-- No slot is open; what is no group has none. -/
def allPresent : Predicate := fun seen _ => seen.slots.all Option.isSome

def slotInteger (i : Nat) : Predicate := fun seen _ => (seen.slot? i).any Value.isInteger

/-! ## On the rule -/

/-- The rule has a wording of its own for `check`. -/
def hasWording (check : String) : Predicate := fun _ outline => outline.wordings.contains check

def withinLen : Predicate := fun seen outline => Parameter.len.passes seen outline

/-! ## Combined -/

protected def not (p : Predicate) : Predicate := fun seen outline => !p seen outline

def all (ps : List Predicate) : Predicate := fun seen outline => ps.all fun p => p seen outline

def any (ps : List Predicate) : Predicate := fun seen outline => ps.any fun p => p seen outline

end Predicate
end FieldRules
