import FieldRules.Text.CharSet
/-!
# Quote — texts between quotes

A text in a line of a log stands between quotes.  **Every character that would end the text early, break the line or not
be seen is escaped**: a few have a letter of their own, and the others are written by their code point, as in
`\u{200b}`.  Any other character stands as it is, an apostrophe among them.
-/
namespace FieldRules
namespace Text

/-- The control and format characters, those of private use, and every separator but the space. -/
def unseen : CharSet := [
  ⟨0x0, 0x1f, 1⟩, ⟨0x7f, 0xa0, 1⟩, ⟨0xad, 0xad, 1⟩, ⟨0x600, 0x605, 1⟩, ⟨0x61c, 0x61c, 1⟩, ⟨0x6dd, 0x6dd, 1⟩,
  ⟨0x70f, 0x70f, 1⟩, ⟨0x890, 0x891, 1⟩, ⟨0x8e2, 0x8e2, 1⟩, ⟨0x1680, 0x1680, 1⟩, ⟨0x180e, 0x180e, 1⟩,
  ⟨0x2000, 0x200f, 1⟩, ⟨0x2028, 0x202f, 1⟩, ⟨0x205f, 0x2064, 1⟩, ⟨0x2066, 0x206f, 1⟩, ⟨0x3000, 0x3000, 1⟩,
  ⟨0xe000, 0xf8ff, 1⟩, ⟨0xfeff, 0xfeff, 1⟩, ⟨0xfff9, 0xfffb, 1⟩, ⟨0x110bd, 0x110bd, 1⟩, ⟨0x110cd, 0x110cd, 1⟩,
  ⟨0x13430, 0x1343f, 1⟩, ⟨0x1bca0, 0x1bca3, 1⟩, ⟨0x1d173, 0x1d17a, 1⟩, ⟨0xe0001, 0xe0001, 1⟩, ⟨0xe0020, 0xe007f, 1⟩,
  ⟨0xf0000, 0xffffd, 1⟩, ⟨0x100000, 0x10fffd, 1⟩]

/-- The characters that are escaped by a letter. -/
def escapeLetters : List (Char × Char) :=
  [('\x00', '0'), ('\t', 't'), ('\r', 'r'), ('\n', 'n'), ('"', '"'), ('\\', '\\')]

def escape (c : Char) : List Char :=
  match escapeLetters.lookup c with
  | some letter => ['\\', letter]
  | none =>
    if unseen.contains c then '\\' :: 'u' :: '\x7b' :: (Nat.toDigits 16 c.toNat ++ ['\x7d'])
    else [c]

def quoted (s : String) : String := String.ofList ('"' :: (s.toList.flatMap escape ++ ['"']))

end Text
end FieldRules
