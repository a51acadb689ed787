import FieldRules.Proofs.Tables
import FieldRules.Value.Canonical
/-!
# RoundTrip — reports written and read again

A written report has no mark that says which entries are bare messages and which are checks; the shape of each value
is enough to tell.  **What is written is read back as it was**, the order of fields and of checks included
(`ofValue?_toValue`), and read back from members in order of their names it is still an equal report
(`Report.ofValue?_canonical`).

In the other direction, what is read has been condensed: a name that was written more than once stands where it was
first, with what it was last (`toValue_of_ofValue?`).
-/
namespace FieldRules

section Members

variable {α : Type}

theorem readMembers?_cons_eq_some_iff (read : Value → Option α) (k : String) (v : Value) (ms : List (String × Value))
    (l : List (String × α)) :
    readMembers? read ((k, v) :: ms) = some l ↔
      ∃ a l', read v = some a ∧ readMembers? read ms = some l' ∧ (k, a) :: l' = l := by
  rw [readMembers?, List.mapM_cons, ← readMembers?]
  cases read v <;> cases readMembers? read ms <;> simp

/-- **Members that are written can be read**, one by one. -/
theorem readMembers?_map (read : Value → Option α) (write : α → Value) (h : ∀ a, read (write a) = some a) :
    ∀ l : List (String × α), readMembers? read (l.map fun e => (e.1, write e.2)) = some l
  | [] => rfl
  | (_, a) :: l => (readMembers?_cons_eq_some_iff _ _ _ _ _).2 ⟨a, l, h a, readMembers?_map read write h l, rfl⟩

/-- **What was read is written as it stood**, up to what `norm` does to each value. -/
theorem map_write_of_readMembers? {read : Value → Option α} {write : α → Value} {norm : Value → Value}
    (h : ∀ v a, read v = some a → write a = norm v) :
    ∀ (ms : List (String × Value)) (l : List (String × α)), readMembers? read ms = some l →
      (l.map fun e => (e.1, write e.2)) = ms.map fun m => (m.1, norm m.2)
  | [], l, hl => by cases hl; rfl
  | (k, v) :: ms, l, hl => by
    obtain ⟨a, l', ha, hl', rfl⟩ := (readMembers?_cons_eq_some_iff _ _ _ _ _).1 hl
    rw [List.map_cons, List.map_cons, map_write_of_readMembers? h ms l' hl', h v a ha]

theorem map_fst_of_readMembers? (read : Value → Option α) :
    ∀ (ms : List (String × Value)) (l : List (String × α)), readMembers? read ms = some l →
      l.map Prod.fst = ms.map Prod.fst
  | [], l, hl => by cases hl; rfl
  | (k, v) :: ms, l, hl => by
    obtain ⟨a, l', -, hl', rfl⟩ := (readMembers?_cons_eq_some_iff _ _ _ _ _).1 hl
    rw [List.map_cons, List.map_cons, map_fst_of_readMembers? read ms l' hl']

theorem lookup_of_readMembers? (read : Value → Option α) (k : String) :
    ∀ (ms : List (String × Value)) (l : List (String × α)), readMembers? read ms = some l →
      l.lookup k = (ms.lookup k).bind read
  | [], l, hl => by cases hl; rfl
  | (i, v) :: ms, l, hl => by
    obtain ⟨a, l', ha, hl', rfl⟩ := (readMembers?_cons_eq_some_iff _ _ _ _ _).1 hl
    rw [Table.lookup_cons_eq, Table.lookup_cons_eq, lookup_of_readMembers? read k ms l' hl']
    by_cases hk : k = i
    · rw [if_pos hk, if_pos hk, Option.bind_some, ha]
    · rw [if_neg hk, if_neg hk]

theorem exists_readMembers? (read : Value → Option α) :
    ∀ ms : List (String × Value), (∀ m ∈ ms, ∃ a, read m.2 = some a) → ∃ l, readMembers? read ms = some l
  | [], _ => ⟨[], rfl⟩
  | (k, v) :: ms, h => by
    obtain ⟨a, ha⟩ := h (k, v) List.mem_cons_self
    obtain ⟨l, hl⟩ := exists_readMembers? read ms fun m hm => h m (List.mem_cons_of_mem _ hm)
    exact ⟨(k, a) :: l, (readMembers?_cons_eq_some_iff _ _ _ _ _).2 ⟨a, l, ha, hl, rfl⟩⟩

end Members

/-! ## Written and read -/

theorem Failure.ofValue?_toValue (e : Failure) : Failure.ofValue? e.toValue = some e := by
  cases e with
  | bare message => rfl
  | byCheck messages =>
    rw [toValue, ofValue?, readMembers?_map Value.string? .string fun _ => rfl, Option.map_some, Table.ofList_entries]

theorem Report.ofValue?_toValue (report : Report) : Report.ofValue? (Report.toValue report) = some report := by
  rw [toValue, ofValue?, readMembers?_map _ _ Failure.ofValue?_toValue, Option.map_some, Table.ofList_entries]

/-! ## Read and written -/

/-- The members of an object, condensed. -/
def Value.condense : Value → Value
  | .object ms => .object (Table.condensed ms)
  | v => v

theorem Failure.toValue_of_ofValue? (v : Value) (e : Failure) (h : Failure.ofValue? v = some e) :
    e.toValue = v.condense := by
  cases v with
  | string message =>
    cases h
    rfl
  | object ms =>
    obtain ⟨l, hl, rfl⟩ := Option.map_eq_some_iff.1 h
    have hms : (l.map fun c => (c.1, Value.string c.2)) = ms.map fun m => (m.1, id m.2) :=
      map_write_of_readMembers? (fun v s hs => ((Value.string?_eq_some_iff v s).1 hs).symm) ms l hl
    rw [toValue, Table.entries_ofList, ← Table.condensed_map, hms, Value.condense]
    simp only [id_eq, List.map_id']
  | _ => cases h

theorem Report.toValue_of_ofValue? (ms : List (String × Value)) (report : Report)
    (h : Report.ofValue? (.object ms) = some report) :
    Report.toValue report = .object ((Table.condensed ms).map fun m => (m.1, m.2.condense)) := by
  obtain ⟨l, hl, rfl⟩ := Option.map_eq_some_iff.1 h
  have hms : (l.map fun e => (e.1, e.2.toValue)) = ms.map fun m => (m.1, m.2.condense) :=
    map_write_of_readMembers? Failure.toValue_of_ofValue? ms l hl
  rw [toValue, Table.entries_ofList, ← Table.condensed_map, hms, Table.condensed_map]

/-! ## Read in order of the names -/

section Canonical

variable {α : Type}

theorem lookup_canonicalMembers_map (write : α → Value) (t : Table α) (k : String) :
    (Value.canonicalMembers (t.entries.map fun e => (e.1, write e.2))).lookup k
      = (t.get? k).map fun a => (write a).canonical := by
  have hback : (t.map write).entries.reverse.lookup k = (t.map write).get? k := by
    rw [← Table.get?_ofList, Table.ofList_entries]
  rw [Value.lookup_canonicalMembers]
  calc (((t.map write).entries.reverse.lookup k).map Value.canonical)
      = ((t.get? k).map write).map Value.canonical := by rw [hback, Table.get?_map]
    _ = (t.get? k).map fun a => (write a).canonical := Option.map_map _ _ _

/-- **A table that is read from the canonical form of its members is the same table**, if each of its values is read
from its own canonical form as an equal value. -/
theorem read_canonicalMembers (read : Value → Option α) (write : α → Value) (eq : α → α → Bool)
    (h : ∀ a, ∃ b, read (write a).canonical = some b ∧ eq a b = true) (t : Table α) :
    ∃ l, readMembers? read (Value.canonicalMembers (t.entries.map fun e => (e.1, write e.2))) = some l ∧
      Table.same eq t (.ofList l) = true := by
  have hlookup := lookup_canonicalMembers_map write t
  have hnodup := (Value.ascending_canonicalMembers (t.entries.map fun e => (e.1, write e.2))).nodup
  generalize Value.canonicalMembers (t.entries.map fun e => (e.1, write e.2)) = ms at hlookup hnodup ⊢
  have hreads : ∀ m ∈ ms, ∃ b, read m.2 = some b := by
    intro m hm
    have hvalue := hlookup m.1
    rw [(Table.lookup_eq_some_iff_mem m.1 m.2 ms hnodup).2 hm] at hvalue
    obtain ⟨a, -, ha⟩ := Option.map_eq_some_iff.1 hvalue.symm
    obtain ⟨b, hb, -⟩ := h a
    exact ⟨b, ha ▸ hb⟩
  obtain ⟨l, hl⟩ := exists_readMembers? read ms hreads
  have hentries : (Table.ofList l) = ⟨l, by rw [map_fst_of_readMembers? read ms l hl]; exact hnodup⟩ :=
    Table.ofList_entries ⟨l, _⟩
  refine ⟨l, hl, (Table.same_iff eq t _).2 fun k => ?_⟩
  have hget : (Table.ofList l).get? k = ((t.get? k).map fun a => (write a).canonical).bind read := by
    rw [hentries, Table.get?, lookup_of_readMembers? read k ms l hl, hlookup k]
  rw [hget]
  cases t.get? k with
  | none => exact .none
  | some a =>
    obtain ⟨b, hb, hab⟩ := h a
    rw [Option.map_some, Option.bind_some, hb]
    exact .some hab

end Canonical

theorem Failure.ofValue?_canonical (e : Failure) :
    ∃ e', Failure.ofValue? e.toValue.canonical = some e' ∧ e.same e' = true := by
  cases e with
  | bare message => exact ⟨.bare message, rfl, beq_self_eq_true message⟩
  | byCheck messages =>
    obtain ⟨l, hl, hsame⟩ := read_canonicalMembers Value.string? .string (· == ·)
      (fun m => ⟨m, rfl, beq_self_eq_true m⟩) messages
    refine ⟨.byCheck (.ofList l), ?_, hsame⟩
    rw [toValue, Value.canonical, ofValue?, hl, Option.map_some]

theorem Report.ofValue?_canonical (report : Report) :
    ∃ back, Report.ofValue? (Report.toValue report).canonical = some back ∧ Report.same report back = true := by
  obtain ⟨l, hl, hsame⟩ := read_canonicalMembers _ _ _ Failure.ofValue?_canonical report
  refine ⟨.ofList l, ?_, hsame⟩
  rw [toValue, Value.canonical, ofValue?, hl, Option.map_some]

/-- **A report survives being written.**  Read as it was written, it is the same report, entry by entry and check by
check, in the same order; read from the members in order of their names, it is equal as a report.  Any members that are
read as a report are written again condensed: each field, and each check of a field, once and in its first place, with
what it was last. -/
theorem report_round_trip :
    (∀ report : Report, Report.ofValue? report.toValue = some report) ∧
    (∀ report : Report, ∃ ms, report.toValue.canonical = .object ms ∧
      Value.Ascending ms ∧ (∀ m ∈ ms, ∀ checks, m.2 = .object checks → Value.Ascending checks) ∧
      ∃ back, Report.ofValue? (.object ms) = some back ∧ Report.same report back = true) ∧
    ∀ (ms : List (String × Value)) (report : Report), Report.ofValue? (.object ms) = some report →
      report.toValue = .object ((Table.condensed ms).map fun m => (m.1, m.2.condense)) := by
  refine ⟨Report.ofValue?_toValue, fun report => ?_, Report.toValue_of_ofValue?⟩
  have hform : report.toValue.canonical
      = .object (Value.canonicalMembers (report.entries.map fun e => (e.1, e.2.toValue))) := by
    rw [Report.toValue, Value.canonical]
  obtain ⟨back, hback, hsame⟩ := Report.ofValue?_canonical report
  rw [hform] at hback
  refine ⟨_, hform, Value.ascending_canonicalMembers _, fun m hm checks hchecks => ?_, back, hback, hsame⟩
  obtain ⟨v, hv⟩ := Value.exists_canonical_of_mem hm
  exact Value.ascending_of_canonical_eq_object (hv.trans hchecks)

/-- `b` is written twice, first as a message and then with `len` twice among its checks; `c` has no checks at all. -/
theorem report_round_trip_repeated :
    let ms : List (String × Value) := [
      ("b", .string "late"), ("", .string ""), ("c", .object []),
      ("b", .object [("len", .string "first"), ("empty", .string ""), ("len", .string "last")])]
    ∃ report : Report, Report.ofValue? (.object ms) = some report ∧
      report.toValue = .object ((Table.condensed ms).map fun m => (m.1, m.2.condense)) ∧
      report.entries = [("b", .byCheck (.ofList [("len", "last"), ("empty", "")])), ("", .bare ""),
        ("c", .byCheck ∅)] := by
  intro ms
  have hread : (Report.ofValue? (.object ms)).isSome = true := by decide
  obtain ⟨report, hreport⟩ := Option.isSome_iff_exists.1 hread
  refine ⟨report, hreport, report_round_trip.2.2 ms report hreport, ?_⟩
  cases hreport
  decide

end FieldRules
