import FieldRules.Number.Integer
import FieldRules.Number.Binary64
import FieldRules.Table
/-!
# Value — the dynamic values that rules are read from and run against

Subjects, loosely typed rules, options and written reports are all values: null, booleans, numbers, strings, arrays and
objects.  An object is the sequence of its members as they were written, where a name may repeat; the reading is that
**the last member of a name counts** (`get?`), in the place of the first (`fields`).

A value is absent or present by its name alone: a member that holds `null` is present.
-/
namespace FieldRules

inductive Value where
  | null
  | bool (b : Bool)
  | int (n : Integer)
  | float (x : Binary64)
  | string (s : String)
  | array (items : List Value)
  | object (members : List (String × Value))
  deriving Inhabited

/-- What a value is, its contents aside. -/
inductive Kind where
  | null
  | boolean
  | number
  | string
  | array
  | object
  deriving DecidableEq

def Kind.name : Kind → String
  | .null => "null"
  | .boolean => "boolean"
  | .number => "number"
  | .string => "string"
  | .array => "array"
  | .object => "object"

namespace Value

def kind : Value → Kind
  | .null => .null
  | .bool _ => .boolean
  | .int _ => .number
  | .float _ => .number
  | .string _ => .string
  | .array _ => .array
  | .object _ => .object

def string? : Value → Option String
  | .string s => some s
  | _ => none

theorem string?_eq_some_iff (v : Value) (s : String) : v.string? = some s ↔ v = .string s := by
  cases v <;> simp [string?]

/-! ## Objects -/

/-- The members by name; `none` unless the value is an object. -/
def fields : Value → Option (Table Value)
  | .object ms => some (Table.ofList ms)
  | _ => none

/-- The value under a name.  Only objects have names. -/
def get? (v : Value) (name : String) : Option Value :=
  match v with
  | .object ms => ms.reverse.lookup name
  | _ => none

theorem get?_eq_fields (v : Value) (name : String) : v.get? name = v.fields.bind (·.get? name) := by
  cases v <;> simp [get?, fields, Table.get?_ofList]

@[simp] theorem get?_object_entries (t : Table Value) (name : String) :
    (Value.object t.entries).get? name = t.get? name := by
  rw [get?_eq_fields, fields, Table.ofList_entries, Option.bind_some]

/-- The object with `name` set to `x`; any other value first becomes the empty object. -/
def put (v : Value) (name : String) (x : Value) : Value :=
  .object ((v.fields.getD ∅).insert name x).entries

/-- The object without `name`; any other value is left as it is. -/
def erase (v : Value) (name : String) : Value :=
  match v with
  | .object ms => .object (ms.filter (fun m => m.1 != name))
  | v => v

theorem get?_put (v : Value) (name : String) (x : Value) (k : String) :
    (v.put name x).get? k = if k = name then some x else v.get? k := by
  rw [put, get?_object_entries, Table.get?_insert, get?_eq_fields v]
  cases v.fields <;> rfl

theorem lookup_filter_ne (name k : String) :
    ∀ ms : List (String × Value),
      (ms.filter fun m => m.1 != name).lookup k = if k = name then none else ms.lookup k
  | [] => by simp
  | (i, x) :: ms => by
    rw [List.filter_cons, Table.lookup_cons_eq]
    by_cases hi : i = name
    · subst hi
      rw [if_neg (by simp), lookup_filter_ne i k ms]
      split <;> rfl
    · rw [if_pos (by simp [hi]), Table.lookup_cons_eq, lookup_filter_ne name k ms]
      by_cases hk : k = i
      · simp [hk, hi]
      · simp [hk]

theorem get?_erase (v : Value) (name k : String) :
    (v.erase name).get? k = if k = name then none else v.get? k := by
  cases v with
  | object ms => rw [erase, get?, get?, ← List.filter_reverse, lookup_filter_ne]
  | _ => simp [erase, get?]

/-! ## Emptiness and truth -/

/-- Only a string, an array or an object can hold something; null, booleans and numbers are empty. -/
def isEmpty : Value → Bool
  | .null => true
  | .bool _ => true
  | .int _ => true
  | .float _ => true
  | .string s => s.isEmpty
  | .array items => items.isEmpty
  | .object ms => ms.isEmpty

/-- Whether a value that stands where a switch is meant switches it on: `0`, a NaN, the empty string and null do not,
and every array and object does. -/
def countsAsTrue : Value → Bool
  | .null => false
  | .bool b => b
  | .int n => n.val != 0
  | .float x => !x.isZero && !x.isNaN
  | .string s => !s.isEmpty
  | .array _ => true
  | .object _ => true

/-- **What does not count as true**: null, false, a zero, a NaN and the empty string, and nothing else. -/
theorem countsAsTrue_eq_false_iff (v : Value) :
    v.countsAsTrue = false ↔
      v = .null ∨ v = .bool false ∨ (∃ n, v = .int n ∧ n.val = 0) ∨
        (∃ x, v = .float x ∧ (x.isZero = true ∨ x.isNaN = true)) ∨ v = .string "" := by
  cases v with
  | float x => cases hzero : x.isZero <;> simp [countsAsTrue, hzero]
  | _ => simp [countsAsTrue]

end Value
end FieldRules
