import FieldRules.Proofs.RoundTrip
/-!
# Reading — which values are reports

A report is read from an object whose members are strings or objects of strings, and from nothing else; names may
repeat.  **Every member has a say in whether there is a report, and the last one of a name in what it holds**: a member
that is out of shape refuses the whole, even if a later one would have replaced it, and a field stands where its name
is first (`Table.ReadFrom`).

The two levels of an object of objects are read alike, the fields of a report from its members and the checks of a
field from theirs, so that one statement about members says it for both (`map_readMembers?_eq_some_iff`).
-/
namespace FieldRules

/-! ## Shapes -/

def Value.IsText (v : Value) : Prop := ∃ text, v = .string text

def Value.IsFailure (v : Value) : Prop := v.IsText ∨ ∃ checks, v = .object checks ∧ ∀ c ∈ checks, c.2.IsText

def Value.IsReport (v : Value) : Prop := ∃ ms, v = .object ms ∧ ∀ m ∈ ms, m.2.IsFailure

/-! ## Members -/

/-- A table as it is read from members, where a value can be read as `reads` says: every member can be read, a name
stands where it is first, and it holds what is read from its last member. -/
structure Table.ReadFrom {α : Type} (reads : Value → α → Prop) (ms : List (String × Value)) (t : Table α) : Prop where
  members : ∀ m ∈ ms, ∃ a, reads m.2 a
  names : t.keys = (ms.map Prod.fst).eraseDups
  entries : ∀ k a, t.get? k = some a ↔ ∃ v, IsLast ms k v ∧ reads v a

section Members

variable {α : Type}

theorem exists_readMembers?_iff (read : Value → Option α) (ms : List (String × Value)) :
    (∃ l, readMembers? read ms = some l) ↔ ∀ m ∈ ms, ∃ a, read m.2 = some a := by
  refine ⟨?_, exists_readMembers? read ms⟩
  rintro ⟨l, hl⟩
  induction ms generalizing l with
  | nil => simp
  | cons m ms ih =>
    obtain ⟨a, l', ha, hl', -⟩ := (readMembers?_cons_eq_some_iff read m.1 m.2 ms l).1 hl
    exact List.forall_mem_cons.2 ⟨⟨a, ha⟩, ih l' hl'⟩

theorem readMembers?_append_eq_some_iff (read : Value → Option α) (ms ns : List (String × Value))
    (l : List (String × α)) :
    readMembers? read (ms ++ ns) = some l ↔
      ∃ l₁ l₂, readMembers? read ms = some l₁ ∧ readMembers? read ns = some l₂ ∧ l₁ ++ l₂ = l := by
  rw [readMembers?, List.mapM_append, ← readMembers?, ← readMembers?]
  cases readMembers? read ms <;> cases readMembers? read ns <;> simp

theorem readMembers?_reverse {read : Value → Option α} :
    ∀ {ms : List (String × Value)} {l : List (String × α)}, readMembers? read ms = some l →
      readMembers? read ms.reverse = some l.reverse
  | [], l, hl => by cases hl; rfl
  | (k, v) :: ms, l, hl => by
    obtain ⟨a, l', ha, hl', rfl⟩ := (readMembers?_cons_eq_some_iff read k v ms l).1 hl
    have hlast : readMembers? read [(k, v)] = some [(k, a)] :=
      (readMembers?_cons_eq_some_iff read k v [] _).2 ⟨a, [], ha, rfl, rfl⟩
    rw [List.reverse_cons, List.reverse_cons, readMembers?_append_eq_some_iff]
    exact ⟨l'.reverse, [(k, a)], readMembers?_reverse hl', hlast, rfl⟩

/-- **A table that is written from what was read is read from the members**, each name with its last. -/
theorem readFrom_ofList {read : Value → Option α} {reads : Value → α → Prop}
    (h : ∀ v a, read v = some a ↔ reads v a) {ms : List (String × Value)} {l : List (String × α)}
    (hl : readMembers? read ms = some l) : (Table.ofList l).ReadFrom reads ms where
  members m hm := by
    obtain ⟨a, ha⟩ := (exists_readMembers?_iff read ms).1 ⟨l, hl⟩ m hm
    exact ⟨a, (h m.2 a).1 ha⟩
  names := by rw [Table.keys_ofList, map_fst_of_readMembers? read ms l hl]
  entries k a := by
    rw [Table.get?_ofList, lookup_of_readMembers? read k _ _ (readMembers?_reverse hl), Option.bind_eq_some_iff]
    simp only [Table.isLast_iff_lookup, h]

theorem Table.ReadFrom.unique {reads : Value → α → Prop} {ms : List (String × Value)} {s t : Table α}
    (hs : s.ReadFrom reads ms) (ht : t.ReadFrom reads ms) : s = t := by
  refine ext_get? (hs.names.trans ht.names.symm) fun k => Option.ext fun a => ?_
  rw [hs.entries, ht.entries]

/-- **Members are read exactly as the relation says**, if each value is. -/
theorem map_readMembers?_eq_some_iff {read : Value → Option α} {reads : Value → α → Prop}
    (h : ∀ v a, read v = some a ↔ reads v a) (ms : List (String × Value)) (t : Table α) :
    (readMembers? read ms).map Table.ofList = some t ↔ t.ReadFrom reads ms := by
  constructor
  · intro ht
    obtain ⟨l, hl, rfl⟩ := Option.map_eq_some_iff.1 ht
    exact readFrom_ofList h hl
  · intro ht
    have hread : ∀ m ∈ ms, ∃ a, read m.2 = some a := fun m hm =>
      (ht.members m hm).imp fun a ha => (h m.2 a).2 ha
    obtain ⟨l, hl⟩ := exists_readMembers? read ms hread
    rw [hl, Option.map_some, (readFrom_ofList h hl).unique ht]

end Members

/-! ## Failures and reports -/

/-- The failure that a value stands for: a string for its message, an object for its checks. -/
inductive Failure.Reads : Value → Failure → Prop
  | bare (message : String) : Reads (.string message) (.bare message)
  | byCheck {checks : List (String × Value)} {messages : Table String}
      (h : messages.ReadFrom (fun v message => v = .string message) checks) :
      Reads (.object checks) (.byCheck messages)

theorem Failure.ofValue?_object (checks : List (String × Value)) :
    ofValue? (.object checks) = ((readMembers? Value.string? checks).map Table.ofList).map .byCheck := by
  rw [ofValue?, Option.map_map]
  rfl

theorem Failure.ofValue?_eq_some_iff (v : Value) (e : Failure) : ofValue? v = some e ↔ Reads v e := by
  have hchecks := map_readMembers?_eq_some_iff Value.string?_eq_some_iff
  constructor
  · intro he
    cases v with
    | string message =>
      cases he
      exact .bare message
    | object checks =>
      rw [ofValue?_object] at he
      obtain ⟨messages, hmessages, rfl⟩ := Option.map_eq_some_iff.1 he
      exact .byCheck ((hchecks checks messages).1 hmessages)
    | _ => cases he
  · intro he
    cases he with
    | bare message => rfl
    | byCheck h => rw [ofValue?_object, (hchecks _ _).2 h, Option.map_some]

theorem Value.isFailure_object_iff (checks : List (String × Value)) :
    (Value.object checks).IsFailure ↔ ∀ c ∈ checks, c.2.IsText := by
  simp [IsFailure, IsText]

theorem Failure.exists_reads_iff (v : Value) : (∃ e, Reads v e) ↔ v.IsFailure := by
  simp only [← ofValue?_eq_some_iff]
  cases v with
  | string message => simp [ofValue?, Value.IsFailure, Value.IsText]
  | object checks =>
    have htext : ∀ w : Value, (∃ message, w.string? = some message) ↔ w.IsText := fun w =>
      exists_congr fun message => Value.string?_eq_some_iff w message
    calc (∃ e, ofValue? (.object checks) = some e)
        ↔ ∃ l, readMembers? Value.string? checks = some l := by simp [ofValue?]
      _ ↔ ∀ c ∈ checks, c.2.IsText := by simp only [exists_readMembers?_iff, htext]
      _ ↔ (Value.object checks).IsFailure := (Value.isFailure_object_iff checks).symm
  | _ => simp [ofValue?, Value.IsFailure, Value.IsText]

theorem Report.ofValue?_object_eq_some_iff (ms : List (String × Value)) (report : Report) :
    Report.ofValue? (.object ms) = some report ↔ report.ReadFrom Failure.Reads ms :=
  map_readMembers?_eq_some_iff Failure.ofValue?_eq_some_iff ms report

theorem Value.isReport_object_iff (ms : List (String × Value)) :
    (Value.object ms).IsReport ↔ ∀ m ∈ ms, m.2.IsFailure := by
  simp [IsReport]

theorem Report.exists_ofValue?_iff (v : Value) : (∃ report, Report.ofValue? v = some report) ↔ v.IsReport := by
  cases v with
  | object ms =>
    calc (∃ report, Report.ofValue? (.object ms) = some report)
        ↔ ∃ l, readMembers? Failure.ofValue? ms = some l := by simp [ofValue?]
      _ ↔ ∀ m ∈ ms, m.2.IsFailure := by
        simp only [exists_readMembers?_iff, Failure.ofValue?_eq_some_iff, Failure.exists_reads_iff]
      _ ↔ (Value.object ms).IsReport := (Value.isReport_object_iff ms).symm
  | _ => simp [ofValue?, Value.IsReport]

theorem Report.ofValue?_eq_none_iff (v : Value) : Report.ofValue? v = none ↔ ¬v.IsReport := by
  rw [← exists_ofValue?_iff, ← Option.isSome_iff_exists, Option.not_isSome_iff_eq_none]

/-- **Reading accepts exactly the reports.**  There is a report when the value is an object of which every member is a
string or an object of strings; the names of the report, and those of the checks of a field, then stand in the order
of their first members and hold what their last members say.  A member that is neither refuses the whole, whatever
comes after it, and so does a value that is no object; a member that is an object with nothing in it is a failure
without checks. -/
theorem Report.ofValue?_accepts_reports :
    (∀ v, (∃ report, Report.ofValue? v = some report) ↔ v.IsReport) ∧
    (∀ ms report, Report.ofValue? (.object ms) = some report ↔ report.ReadFrom Failure.Reads ms) ∧
    (∀ before field v after, ¬v.IsFailure → Report.ofValue? (.object (before ++ (field, v) :: after)) = none) ∧
    (∀ v : Value, v.kind ≠ .object → Report.ofValue? v = none) ∧
    ∀ ms report field, Report.ofValue? (.object ms) = some report → Table.IsLast ms field (.object []) →
      report.get? field = some (.byCheck ∅) := by
  refine ⟨exists_ofValue?_iff, ofValue?_object_eq_some_iff, fun before field v after hv => ?_, fun v hkind => ?_,
    fun ms report field hreport hlast => ?_⟩
  · rw [ofValue?_eq_none_iff, Value.isReport_object_iff]
    intro hall
    exact hv (hall (field, v) (List.mem_append_right before List.mem_cons_self))
  · rw [ofValue?_eq_none_iff]
    rintro ⟨ms, rfl, -⟩
    exact hkind rfl
  · have hfrom := (ofValue?_object_eq_some_iff ms report).1 hreport
    exact (hfrom.entries field (.byCheck ∅)).2 ⟨.object [], hlast, (Failure.ofValue?_eq_some_iff _ _).1 rfl⟩

/-- `a` turns from a message into checks, of which `len` is written twice, and `b` from checks into none; a null under
`a` is not made good by the string that follows it. -/
theorem Report.ofValue?_accepts_reports_repeated :
    let ms : List (String × Value) := [
      ("b", .object [("len", .string "late")]), ("a", .string "first"), ("b", .object []),
      ("a", .object [("len", .string "odd"), ("empty", .string ""), ("len", .string "last")])]
    (Value.object ms).IsReport ∧ Table.IsLast ms "b" (.object []) ∧
      (∃ report, Report.ofValue? (.object ms) = some report ∧ report.ReadFrom Failure.Reads ms ∧
        report.get? "b" = some (.byCheck ∅) ∧
        report.entries = [("b", .byCheck ∅), ("a", .byCheck (.ofList [("len", "last"), ("empty", "")]))]) ∧
      ¬Value.null.IsFailure ∧
      Report.ofValue? (.object ([("b", .string "")] ++ ("a", .null) :: [("a", .string "last")])) = none ∧
      Value.kind (.array []) ≠ .object ∧ Report.ofValue? (.array []) = none := by
  intro ms
  obtain ⟨haccepts, hreads, hmember, hkind, hempty⟩ := Report.ofValue?_accepts_reports
  have hread : ∃ report, Report.ofValue? (.object ms) = some report := ⟨_, rfl⟩
  have hlast : Table.IsLast ms "b" (.object []) := ⟨ms.take 2, ms.drop 3, rfl, by decide⟩
  have hnull : ¬Value.null.IsFailure := by simp [Value.IsFailure, Value.IsText]
  have harray : Value.kind (.array []) ≠ .object := by decide
  refine ⟨(haccepts _).1 hread, hlast, ?_, hnull, hmember _ _ _ _ hnull, harray, hkind _ harray⟩
  obtain ⟨report, hreport⟩ := hread
  refine ⟨report, hreport, (hreads ms report).1 hreport, hempty ms report "b" hreport hlast, ?_⟩
  cases hreport
  decide

end FieldRules
