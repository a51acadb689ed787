import FieldRules.Failure
import FieldRules.Target
/-!
# Report — the fields that failed

A report holds a failure for each field that has one, in the order the fields first failed; a failure that is put down
under a name again replaces the earlier one where it stands (`record`).

It is written as lines, one for every message, or as an object with the fields for its names: a bare message as a
string, checks as an object of strings.  The lines are written one after the other, and **only a line that is written
asks for a break before the next** (`Draft`).  **Reading such an object takes every member to be well-formed**, those
too that a later member of the same name replaces.
-/
namespace FieldRules

abbrev Report := Table Failure

/-- A text that is being written, and what has to stand between it and its next line. -/
structure Draft where
  text : String
  separator : String

namespace Draft

def blank : Draft := ⟨"", ""⟩

def line (draft : Draft) (content : String) : Draft := ⟨draft.text ++ draft.separator ++ content, "\n"⟩

end Draft

/-- Every member read by `read`, or none of them. -/
def readMembers? {α : Type} (read : Value → Option α) (ms : List (String × Value)) : Option (List (String × α)) :=
  ms.mapM fun m => (read m.2).map fun a => (m.1, a)

namespace Failure

/-- The lines of one field: its name, with the check after a dot if there is one, and the message. -/
def lines (field : String) : Failure → List String
  | .bare message => [field ++ ": " ++ message]
  | .byCheck messages => messages.entries.map fun e => field ++ "." ++ e.1 ++ ": " ++ e.2

/-- Writes the lines of one field. -/
def write (field : String) (draft : Draft) : Failure → Draft
  | .bare message => draft.line (field ++ ": " ++ message)
  | .byCheck messages =>
    messages.entries.foldl (fun draft e => draft.line (field ++ "." ++ e.1 ++ ": " ++ e.2)) draft

def toValue : Failure → Value
  | .bare message => .string message
  | .byCheck messages => .object (messages.entries.map fun e => (e.1, .string e.2))

/-- A string, or an object of strings. -/
def ofValue? : Value → Option Failure
  | .string message => some (.bare message)
  | .object ms => (readMembers? Value.string? ms).map fun l => .byCheck (.ofList l)
  | _ => none

end Failure

namespace Report

/-- Puts a failure down under every name of a target. -/
def record (report : Report) (target : Target) (failure : Failure) : Report :=
  target.names.foldl (fun report name => report.insert name failure) report

def lines (report : Report) : List String :=
  report.entries.flatMap fun e => e.2.lines e.1

def text (report : Report) : String :=
  (report.entries.foldl (fun draft e => e.2.write e.1 draft) Draft.blank).text

def toValue (report : Report) : Value :=
  .object (report.entries.map fun e => (e.1, e.2.toValue))

def ofValue? : Value → Option Report
  | .object ms => (readMembers? Failure.ofValue? ms).map Table.ofList
  | _ => none

/-- The same failures, whatever the order of the fields and of the checks under each. -/
def same (s t : Report) : Bool := Table.same Failure.same s t

end Report
end FieldRules
