import FieldRules.Value
/-!
# Flags — the three switches of a validation

`required` asks whether an absent field is an error, `findFirst` whether a field's first failure is enough, `short`
whether a failure is its bare message.  A rule may set any of them for itself and a call may set any of them for all
its rules.  **A rule's own setting wins over the call's, and a flag that neither sets is on.**
-/
namespace FieldRules

inductive Flag where
  | required
  | findFirst
  | short
  deriving DecidableEq

def Flag.key : Flag → String
  | .required => "required"
  | .findFirst => "findFirst"
  | .short => "short"

/-- One thing for each flag. -/
structure Flags (α : Type) where
  required : α
  findFirst : α
  short : α
  deriving DecidableEq

namespace Flags

variable {α : Type}

def get (fs : Flags α) : Flag → α
  | .required => fs.required
  | .findFirst => fs.findFirst
  | .short => fs.short

def set (fs : Flags α) (f : Flag) (a : α) : Flags α :=
  match f with
  | .required => { fs with required := a }
  | .findFirst => { fs with findFirst := a }
  | .short => { fs with short := a }

def all (a : α) : Flags α := ⟨a, a, a⟩

@[simp] theorem get_set (fs : Flags α) (f g : Flag) (a : α) :
    (fs.set f a).get g = if g = f then a else fs.get g := by
  cases f <;> cases g <;> rfl

theorem ext_get {fs gs : Flags α} (h : ∀ f, fs.get f = gs.get f) : fs = gs := by
  have hrequired : fs.required = gs.required := h .required
  have hfindFirst : fs.findFirst = gs.findFirst := h .findFirst
  have hshort : fs.short = gs.short := h .short
  cases fs
  cases gs
  simp_all

end Flags

/-- Flags that are set, or left open. -/
abbrev Overrides := Flags (Option Bool)

abbrev Settings := Flags Bool

def Overrides.unset : Overrides := Flags.all none

def Settings.default : Settings := Flags.all true

/-- The rule's own setting, else the call's, else on. -/
def Settings.settle (own call : Overrides) : Settings where
  required := (own.required.or call.required).getD Settings.default.required
  findFirst := (own.findFirst.or call.findFirst).getD Settings.default.findFirst
  short := (own.short.or call.short).getD Settings.default.short

theorem Settings.get_settle (own call : Overrides) (f : Flag) :
    (Settings.settle own call).get f = ((own.get f).or (call.get f)).getD true := by
  cases f <;> rfl

/-! ## Written flags -/

namespace Overrides

/-- A boolean sets a flag; null and nothing at all leave it open. -/
def setting? : Option Value → Option (Option Bool)
  | none => some none
  | some .null => some none
  | some (.bool b) => some (some b)
  | some _ => none

/-- Flags are written by name in an object, where other names do not matter, or by position in an array of at most
three. -/
def ofValue? : Value → Option Overrides
  | .object ms => do
    let setting (f : Flag) := setting? ((Value.object ms).get? f.key)
    return ⟨← setting .required, ← setting .findFirst, ← setting .short⟩
  | .array items =>
    if items.length ≤ 3 then do
      return ⟨← setting? items[0]?, ← setting? items[1]?, ← setting? items[2]?⟩
    else none
  | _ => none

/-- Only the flags that are set are written. -/
def toValue (fs : Overrides) : Value :=
  .object <| [Flag.required, .findFirst, .short].filterMap fun f => (fs.get f).map fun b => (f.key, .bool b)

end Overrides
end FieldRules
