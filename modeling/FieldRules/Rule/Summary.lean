import FieldRules.Check
import FieldRules.Number.Shortest
import FieldRules.Text.Quote
/-!
# Summary — a rule or a check in one line

A line for a reader of logs: every part of a rule by name, set or not.  The bodies of checks and of computed messages
have no text and are left out.  Names and texts are quoted.
-/
namespace FieldRules

open Text (quoted)

namespace Summary

def bool (b : Bool) : String := if b then "true" else "false"

def list (items : List String) : String := "[" ++ ", ".intercalate items ++ "]"

def record (name : String) (fields : List (String × String)) : String :=
  name ++ " \x7b " ++ ", ".intercalate (fields.map fun f => f.1 ++ ": " ++ f.2) ++ " \x7d"

def entries (es : List (String × String)) : String :=
  "\x7b" ++ ", ".intercalate (es.map fun e => quoted e.1 ++ ": " ++ e.2) ++ "\x7d"

def apply (name : String) (arguments : List String) : String :=
  name ++ "(" ++ ", ".intercalate arguments ++ ")"

def option {α : Type} (text : α → String) : Option α → String
  | none => "None"
  | some a => apply "Some" [text a]

mutual
def value : Value → String
  | .null => "Null"
  | .bool b => apply "Bool" [bool b]
  | .int n => apply "Number" [toString n.val]
  | .float x => apply "Number" [x.text]
  | .string s => apply "String" [quoted s]
  | .array items => "Array " ++ list (values items)
  | .object ms => "Object " ++ entries (members ms)

def values : List Value → List String
  | [] => []
  | v :: items => value v :: values items

def members : List (String × Value) → List (String × String)
  | [] => []
  | (name, v) :: ms => (name, value v) :: members ms
end

def target : Target → String
  | .single name => apply "Single" [quoted name]
  | .group names => apply "Group" [list (names.map quoted)]

def bound : LengthBound → String
  | .atLeast n => apply "Min" [Nat.repr n.toNat]
  | .within lo hi => apply "Range" [Nat.repr lo.toNat, Nat.repr hi.toNat]
  | .unusable v => apply "Invalid" [value v]

def wording {φ : Type} : Wording φ → String
  | .fixed text => apply "Static" [quoted text]
  | .computed _ => apply "Computed" ["<function>"]

end Summary

def RuleWith.summary {π φ : Type} (r : RuleWith π φ) : String :=
  Summary.record "Rule" [
    ("field", Summary.target r.target),
    ("len", Summary.option Summary.bound r.len),
    ("empty", Summary.option Summary.bool r.empty),
    ("required", Summary.option Summary.bool r.flags.required),
    ("find_first", Summary.option Summary.bool r.flags.findFirst),
    ("short", Summary.option Summary.bool r.flags.short),
    ("custom", Summary.list (r.checks.keys.map quoted)),
    ("messages", Summary.entries (r.wordings.map Summary.wording).entries)]

def Check.summary (c : Check) : String :=
  Summary.record "Check" [
    ("name", quoted c.name),
    ("kind", quoted (if c.isOwn then "custom" else "builtin"))]

end FieldRules
