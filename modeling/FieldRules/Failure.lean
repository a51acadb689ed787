import FieldRules.Table
/-!
# Failure — what went wrong with a field

A field's failure is a bare message, or a message for each check that failed, in the order the checks first failed.
Two checks of one name share an entry.  **A table of messages with nothing in it is no failure** (`collected`).
-/
namespace FieldRules

inductive Failure where
  | bare (message : String)
  | byCheck (messages : Table String)
  deriving DecidableEq

namespace Failure

/-- What a table of messages comes to once no check is left to run. -/
def collected (messages : Table String) : Option Failure :=
  if messages.isEmpty then none else some (.byCheck messages)

def message? : Failure → Option String
  | .bare message => some message
  | .byCheck _ => none

def checks? : Failure → Option (Table String)
  | .bare _ => none
  | .byCheck messages => some messages

def messages : Failure → List String
  | .bare message => [message]
  | .byCheck messages => messages.values

/-- The same failure, whatever the order of its checks. -/
def same : Failure → Failure → Bool
  | .bare a, .bare b => a == b
  | .byCheck a, .byCheck b => Table.same (· == ·) a b
  | _, _ => false

end Failure
end FieldRules
