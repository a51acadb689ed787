/-!
# Email — the shape of an e-mail address

An address is a local part, an `@` and a domain, at most 254 bytes in all.  The local part is made of ASCII letters,
digits and a few marks; the domain is **at least two labels** with dots between them, each of 1 to 63 letters, digits
and hyphens that neither starts nor ends with a hyphen.  Since `@` is not a local character, the local part ends at the
first one.
-/
namespace FieldRules
namespace Text
namespace Email

/-- The marks that may stand in a local part. -/
def marks : List Char :=
  ['.', '!', '#', '$', '%', '&', '\x27', '*', '+', '/', '=', '?', '^', '_', '\x60', '\x7b', '|', '\x7d', '~', '-']

def isLocalChar (c : Char) : Bool := c.isAlphanum || marks.contains c

/-- The local part ends where the `@` is. -/
theorem isLocalChar_at : isLocalChar '@' = false := by decide

def isLocal (cs : List Char) : Bool := !cs.isEmpty && cs.all isLocalChar

def isLabelChar (c : Char) : Bool := c.isAlphanum || c == '-'

/-- No label reaches over a dot. -/
theorem isLabelChar_dot : isLabelChar '.' = false := by decide

def isLabel (cs : List Char) : Bool :=
  cs.length ≤ 63 && cs.all isLabelChar && cs.head?.any Char.isAlphanum && cs.getLast?.any Char.isAlphanum

def isDomain (cs : List Char) : Bool :=
  2 ≤ (cs.splitOn '.').length && (cs.splitOn '.').all isLabel

end Email

def isEmail (s : String) : Bool :=
  s.utf8ByteSize ≤ 254 &&
    match s.toList.dropWhile Email.isLocalChar with
    | '@' :: domain => Email.isLocal (s.toList.takeWhile Email.isLocalChar) && Email.isDomain domain
    | _ => false

end Text
end FieldRules
