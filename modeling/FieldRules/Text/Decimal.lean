import FieldRules.Text.Blank
/-!
# Decimal — numbers written in digits

Two readings of a text as a number live side by side.  `isInteger` asks for **one optional sign and at least one
digit**, of any length, and nothing around them.  `count?` reads a count: blanks around it and a plus before it are
allowed, a minus is not, and the number has to fit an unsigned word of 64 bits.  Digits are the ten ASCII ones.
-/
namespace FieldRules
namespace Text

def isDigits (cs : List Char) : Bool := !cs.isEmpty && cs.all Char.isDigit

/-- At least one digit and nothing else, as a number. -/
def digits? (cs : List Char) : Option Nat :=
  if isDigits cs then some (Nat.ofDigitChars 10 cs 0) else none

def dropPlus : List Char → List Char
  | '+' :: cs => cs
  | cs => cs

def dropSign : List Char → List Char
  | '+' :: cs => cs
  | '-' :: cs => cs
  | cs => cs

def isInteger (s : String) : Bool := isDigits (dropSign s.toList)

def count? (s : String) : Option UInt64 :=
  match digits? (dropPlus (trim s.toList)) with
  | some n => if n < UInt64.size then some (UInt64.ofNat n) else none
  | none => none

end Text
end FieldRules
