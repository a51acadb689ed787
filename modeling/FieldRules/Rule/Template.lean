import FieldRules.Rule.Wording
/-!
# Template — computed messages put together from parts

A template is a list of parts, some literal, some taken from what was seen or from the rule.  What is not there is
written `?`, a length that is not there `n/a`, and a switch that the rule leaves open `-`.
-/
namespace FieldRules

namespace Template

inductive Part where
  | literal (text : String)
  | target
  | names (separator : String)
  | length
  | string
  | count
  | slot (i : Nat)
  | switches

def unknown : String := "?"

def switchText : Option Bool → String
  | some true => "T"
  | some false => "F"
  | none => "-"

def Part.render (seen : Observed) (outline : Outline) : Part → String
  | .literal text => text
  | .target => outline.target.text
  | .names separator => separator.intercalate outline.target.names
  | .length => Wording.given seen.length?
  | .string => seen.string?.getD unknown
  | .count => Nat.repr seen.slots.length
  | .slot i => ((seen.slot? i).bind Value.string?).getD unknown
  | .switches =>
    switchText outline.flags.required ++ switchText outline.flags.findFirst ++ switchText outline.flags.short
      ++ switchText outline.empty

end Template

abbrev Template := List Template.Part

def Template.phrase (parts : Template) : Phrase := fun seen outline =>
  String.join (parts.map (Template.Part.render seen outline))

end FieldRules
