import FieldRules.Proofs.Complaints
import FieldRules.Proofs.Findings
import FieldRules.Proofs.Tables
/-!
# Lines — the text of a report

A report is written in one pass over its fields, and within a field over its checks.  What the pass carries along is the
text so far and the break that the next line will need; a field whose table of messages is empty changes neither.  The
draft therefore always holds the lines of what has been passed, with one break between any two of them (`Draft.Holds`),
and **the text of a report is its lines, joined** (`Report.text_eq`): one for every message, in the order of the fields
and then of the checks, whether or not fields without messages stand among them.

Such fields can be read from a value, but no validation puts one down (`Failure.messages_ne_nil_of_ofComplaints`).
-/
namespace FieldRules

/-! ## Writing -/

namespace Draft

/-- The text is made of `ls`, and a break is wanted before the next line if there is one already. -/
structure Holds (draft : Draft) (ls : List String) : Prop where
  text : draft.text = "\n".intercalate ls
  separator : draft.separator = if ls = [] then "" else "\n"

theorem holds_blank : blank.Holds [] where
  text := by rw [String.intercalate_nil]; rfl
  separator := rfl

section Step

variable {draft : Draft} {ls : List String}

theorem Holds.line (h : draft.Holds ls) (content : String) : (draft.line content).Holds (ls ++ [content]) where
  text := by
    rw [Draft.line, h.text, h.separator]
    by_cases hls : ls = []
    · rw [hls, if_pos rfl, String.intercalate_nil, List.nil_append, String.intercalate_singleton, String.append_empty,
        String.empty_append]
    · rw [if_neg hls, String.intercalate_append_of_ne_nil hls (List.cons_ne_nil content []),
        String.intercalate_singleton]
  separator := by rw [if_neg (List.append_ne_nil_of_right_ne_nil ls (List.cons_ne_nil content []))]; rfl

/-- **A pass whose steps add their lines adds all lines in order.** -/
theorem Holds.foldl {α : Type} {step : Draft → α → Draft} {lines : α → List String}
    (hstep : ∀ {draft ls}, draft.Holds ls → ∀ a, (step draft a).Holds (ls ++ lines a)) :
    ∀ (items : List α) {draft : Draft} {ls : List String}, draft.Holds ls →
      (items.foldl step draft).Holds (ls ++ items.flatMap lines)
  | [], _, ls, h => by rwa [List.flatMap_nil, List.append_nil]
  | a :: items, _, ls, h => by
    rw [List.foldl_cons, List.flatMap_cons, ← List.append_assoc]
    exact Holds.foldl hstep items (hstep h a)

theorem Holds.write (h : draft.Holds ls) (field : String) (e : Failure) :
    (e.write field draft).Holds (ls ++ e.lines field) := by
  cases e with
  | bare message => exact h.line _
  | byCheck messages =>
    have hlines : (Failure.byCheck messages).lines field
        = messages.entries.flatMap fun c => [field ++ "." ++ c.1 ++ ": " ++ c.2] := List.map_eq_flatMap
    rw [hlines]
    exact Holds.foldl (fun h c => h.line (field ++ "." ++ c.1 ++ ": " ++ c.2)) messages.entries h

end Step

end Draft

/-- **The text of a report is its lines, joined.** -/
theorem Report.text_eq (report : Report) : report.text = "\n".intercalate report.lines := by
  have hall := Draft.holds_blank.foldl (fun h e => h.write e.1 e.2) report.entries
  exact hall.text

/-! ## Fields without messages -/

namespace Failure

theorem length_lines (field : String) (e : Failure) : (e.lines field).length = e.messages.length := by
  cases e with
  | bare message => rfl
  | byCheck messages => rw [lines, Failure.messages, Table.values, List.length_map, List.length_map]

theorem lines_eq_nil_iff (field : String) (e : Failure) : e.lines field = [] ↔ e.messages = [] := by
  rw [← List.length_eq_zero_iff, length_lines, List.length_eq_zero_iff]

theorem messages_eq_nil_iff (e : Failure) : e.messages = [] ↔ e = .byCheck ∅ := by
  cases e with
  | bare message => simp [messages]
  | byCheck t =>
    rw [messages, Table.values, List.map_eq_nil_iff, Failure.byCheck.injEq]
    exact ⟨fun h => Table.ext_entries h, fun h => by rw [h]; rfl⟩

theorem ne_empty_of_mem_lines {field line : String} {e : Failure} (h : line ∈ e.lines field) : line ≠ "" := by
  have hcolon : ∀ a b : String, a ++ ": " ++ b ≠ "" := by
    intro a b hab
    have hlist := congrArg String.toList hab
    simp at hlist
  cases e with
  | bare message =>
    rw [List.mem_singleton.1 h]
    exact hcolon _ _
  | byCheck messages =>
    obtain ⟨c, -, rfl⟩ := List.mem_map.1 h
    exact hcolon _ _

/-- **Whatever complaints come to has a message.** -/
theorem messages_ne_nil_of_ofComplaints {o : Settings} {cs : List (String × String)} {e : Failure}
    (h : ofComplaints o cs = some e) : e.messages ≠ [] := by
  have hlist : ∀ {l : List (String × String)}, l ≠ [] → (Failure.byCheck (.ofList l)).messages ≠ [] := by
    intro l hl hnil
    have hempty : (Table.ofList l).isEmpty = true := by
      rw [Failure.byCheck.inj ((messages_eq_nil_iff _).1 hnil)]
      rfl
    rw [Table.isEmpty_ofList, List.isEmpty_iff] at hempty
    exact hl hempty
  obtain ⟨c, -, rfl⟩ | ⟨hne, rfl | rfl⟩ := cases_of_ofComplaints h
  · exact List.cons_ne_nil _ _
  · exact hlist (by simpa using hne)
  · exact hlist hne

end Failure

namespace Report

/-- The report without its fields that have no message. -/
def told (report : Report) : Report := report.filterMap fun e => if e.messages = [] then none else some e

theorem lines_told (report : Report) : report.told.lines = report.lines := by
  have hlines : ∀ l : List (String × Failure),
      ((l.filterMap fun e => (if e.2.messages = [] then none else some e.2).map fun f => (e.1, f)).flatMap
        fun e => e.2.lines e.1) = l.flatMap fun e => e.2.lines e.1 := by
    intro l
    induction l with
    | nil => rfl
    | cons e l ih =>
      rw [List.filterMap_cons, List.flatMap_cons]
      by_cases hnil : e.2.messages = []
      · simp [hnil, ih, (Failure.lines_eq_nil_iff e.1 e.2).2 hnil]
      · simp [hnil, ih]
  exact hlines report.entries

theorem length_lines (report : Report) : report.lines.length = (report.values.flatMap Failure.messages).length := by
  rw [lines, Table.values, List.flatMap_map, List.length_flatMap, List.length_flatMap]
  simp only [Failure.length_lines]

theorem lines_eq_nil_iff (report : Report) : report.lines = [] ↔ ∀ e ∈ report.values, e = .byCheck ∅ := by
  rw [lines, List.flatMap_eq_nil_iff, Table.values, List.forall_mem_map]
  simp only [Failure.lines_eq_nil_iff, Failure.messages_eq_nil_iff]

/-- No line is empty, so that only a report without lines has the empty text. -/
theorem text_eq_empty_iff (report : Report) : report.text = "" ↔ report.lines = [] := by
  rw [text_eq]
  constructor
  · intro htext
    cases hlines : report.lines with
    | nil => rfl
    | cons line rest =>
      obtain ⟨e, -, hline⟩ := List.mem_flatMap.1 (hlines ▸ List.mem_cons_self : line ∈ report.lines)
      have hne := Failure.ne_empty_of_mem_lines hline
      rw [hlines] at htext
      cases rest with
      | nil => exact absurd (String.intercalate_singleton.symm.trans htext) hne
      | cons next rest =>
        rw [String.intercalate_cons_cons] at htext
        simp at htext
  · intro hlines
    rw [hlines, String.intercalate_nil]

end Report

/-! ## Validations -/

theorem empty_byCheck_not_mem_values_validate (subject : Option Value) (rules : List Rule) (call : Overrides) :
    Failure.byCheck ∅ ∉ (validate subject rules call).values := by
  intro hmem
  obtain ⟨entry, hentry, hvacuous⟩ := List.mem_map.1 hmem
  have hget := ((validate subject rules call).get?_eq_some_iff entry.1 entry.2).2 hentry
  obtain ⟨_, r, _, -, -, hfail, -⟩ := (get?_validate_eq_some_iff subject rules call entry.1 entry.2).1 hget
  rw [RuleWith.failure?, RuleWith.judge_eq_ofComplaints] at hfail
  exact Failure.messages_ne_nil_of_ofComplaints hfail ((Failure.messages_eq_nil_iff entry.2).2 hvacuous)

/-- **A report reads as the list of its failures.**  Its text has a line for every message, in the order of the fields
and then of the checks, and a break between any two lines; there are as many lines as messages, and fields without any
leave no trace, wherever they stand, so that nothing else has the empty text than a report of such fields.  A validation
puts no such field down, and its text is empty exactly when it found nothing. -/
theorem Report.text_lists_failures :
    (∀ report : Report,
      report.text = "\n".intercalate report.lines ∧
      report.lines.length = (report.values.flatMap Failure.messages).length ∧
      report.told.text = report.text ∧
      (report.text = "" ↔ ∀ e ∈ report.values, e = .byCheck ∅)) ∧
    ∀ (subject : Option Value) (rules : List Rule) (call : Overrides),
      Failure.byCheck ∅ ∉ (validate subject rules call).values ∧
      ((validate subject rules call).text = "" ↔ (validate subject rules call).isEmpty = true) := by
  have hempty : ∀ report : Report, report.text = "" ↔ ∀ e ∈ report.values, e = .byCheck ∅ := fun report =>
    report.text_eq_empty_iff.trans report.lines_eq_nil_iff
  refine ⟨fun report => ⟨report.text_eq, report.length_lines, ?_, hempty report⟩, fun subject rules call => ?_⟩
  · rw [text_eq, text_eq, lines_told]
  · have hvacuous := empty_byCheck_not_mem_values_validate subject rules call
    refine ⟨hvacuous, (hempty _).trans ?_⟩
    rw [Table.isEmpty, List.isEmpty_iff, ← List.map_eq_nil_iff, ← Table.values, List.eq_nil_iff_forall_not_mem]
    exact forall_congr' fun e => ⟨fun h he => hvacuous (h he ▸ he), fun h he => absurd he h⟩

-- fields without messages at either end and in the middle, one of them after a message that is empty
example :
    let report : Report := .ofList [("a", .byCheck ∅), ("b", .byCheck (.ofList [("len", "Longer"), ("empty", "")])),
      ("c", .byCheck ∅), ("d", .bare "Both"), ("e", .byCheck ∅)]
    report.text = "b.len: Longer\nb.empty: \nd: Both" := by
  decide

end FieldRules
