import FieldRules.Proofs.Additions
import FieldRules.Proofs.Causes
/-!
# Rewordings — a rule with one wording more

What is wrong with a value is a list of grounds, each with the name it is put down under and the name it is worded under
(`grounds`).  The two names are one where a check fails; an absence is put down under `isRequired` and worded under
`required` or `arrayMiss`.  A judgement that has the second names where the messages would stand is unworded, and **a
judgement is its unworded form, put into words** (`judge_eq_map_unworded`).

No wording goes into the unworded form, so that a new one leaves it as it is, as long as the checks do not mind
(`unworded_add_wording`).  **Only the words under the reworded name can change**, and where the unworded form does not
have that name, nothing does.
-/
namespace FieldRules

namespace Failure

/-! ## Failures in other words -/

/-- Every text of the failure, replaced. -/
def reworded (say : String → String) : Failure → Failure
  | .bare text => .bare (say text)
  | .byCheck texts => .byCheck (texts.map say)

/-- Both are bare messages, or both have messages under the same names in the same order. -/
def SameShape : Failure → Failure → Prop
  | .bare _, .bare _ => True
  | .byCheck texts, .byCheck texts' => texts'.keys = texts.keys
  | _, _ => False

theorem sameShape_reworded (e : Failure) (say say' : String → String) :
    (e.reworded say).SameShape (e.reworded say') := by
  cases e with
  | bare text => exact True.intro
  | byCheck texts =>
    have hkeys : (texts.map say').keys = (texts.map say).keys := by rw [Table.keys_map, Table.keys_map]
    exact hkeys

theorem exists_of_map_reworded_eq_some {v : Option Failure} {say : String → String} {t : Table String}
    (h : v.map (reworded say) = some (.byCheck t)) : ∃ names, v = some (.byCheck names) ∧ t = names.map say := by
  obtain ⟨e, rfl, he⟩ := Option.map_eq_some_iff.1 h
  cases e with
  | bare text => cases he
  | byCheck names => exact ⟨names, rfl, (byCheck.inj he).symm⟩

theorem reworded_congr {e : Failure} {say say' : String → String} (h : ∀ text ∈ e.messages, say' text = say text) :
    e.reworded say' = e.reworded say := by
  cases e with
  | bare text => rw [reworded, reworded, h text (List.mem_singleton.2 rfl)]
  | byCheck texts => rw [reworded, reworded, Table.map_congr_values h]

/-- A failure has no text but those of the complaints. -/
theorem mem_of_mem_messages {o : Settings} {cs : List (String × String)} {e : Failure} (h : ofComplaints o cs = some e)
    {text : String} (htext : text ∈ e.messages) : text ∈ cs.map Prod.snd := by
  obtain ⟨c, hc, rfl⟩ | ⟨-, rfl | rfl⟩ := cases_of_ofComplaints h
  · exact List.mem_singleton.1 htext ▸ List.mem_map_of_mem hc
  · have hfirst := Table.mem_of_mem_values_ofList htext
    rw [List.map_take] at hfirst
    exact List.mem_of_mem_take hfirst
  · exact Table.mem_of_mem_values_ofList htext

/-- **As much is reported in these words as in those.** -/
theorem ofComplaints_map (o : Settings) (say : String → String) (cs : List (String × String)) :
    ofComplaints o (cs.map fun c => (c.1, say c.2)) = (ofComplaints o cs).map (reworded say) := by
  cases cs with
  | nil => rfl
  | cons c cs =>
    rw [List.map_cons, ofComplaints, ofComplaints, Option.map_some]
    congr 1
    by_cases hshort : o.short = true
    · rw [if_pos hshort, if_pos hshort]
      rfl
    -- whether the list is cut after its first entry or not, the cut list is put into words
    rw [if_neg hshort, if_neg hshort, reworded, ← Table.ofList_map]
    split <;> rfl

end Failure

theorem Presence.mem_of_judge_eq_absent {target : Target} {required : Bool} {seen : Observed} {reason : String}
    (h : judge target required seen = .absent reason) : reason ∈ ["required", "arrayMiss"] := by
  unfold judge at h
  split at h
  · split at h
    · cases h
      exact List.mem_cons_self
    · cases h
  · split at h
    · cases h
      exact List.mem_cons_of_mem _ List.mem_cons_self
    · cases h

namespace RuleWith

/-! ## Judgements before their words -/

/-- What is wrong with the value: the name that each ground is put down under and the name that it is worded under. -/
def grounds (r : Rule) (required : Bool) (seen : Observed) : List (String × String) :=
  match Presence.judge r.target required seen with
  | .excused => []
  | .absent reason => [(Presence.isRequired, reason)]
  | .present => (r.failedNames seen).map fun k => (k, k)

/-- The judgement, with what each message is worded under in its place. -/
def unworded (r : Rule) (seen : Observed) (o : Settings) : Option Failure :=
  Failure.ofComplaints o (r.grounds o.required seen)

theorem map_snd_grounds (r : Rule) (required : Bool) (seen : Observed) :
    (r.grounds required seen).map Prod.snd = r.causes required seen := by
  unfold grounds causes
  cases Presence.judge r.target required seen with
  | present => rw [List.map_map]; exact List.map_id' _
  | _ => rfl

theorem complaints_eq_map_grounds (r : Rule) (required : Bool) (seen : Observed) :
    r.complaints required seen = (r.grounds required seen).map fun f => (f.1, r.message f.2 seen) := by
  unfold complaints grounds
  cases Presence.judge r.target required seen with
  | present => rw [List.map_map, complaintsOf_listed]; rfl
  | _ => rfl

/-- **A judgement is its unworded form, put into words.** -/
theorem judge_eq_map_unworded (r : Rule) (seen : Observed) (o : Settings) :
    r.judge seen o = (r.unworded seen o).map (Failure.reworded (r.message · seen)) := by
  rw [judge_eq_ofComplaints, complaints_eq_map_grounds]
  exact Failure.ofComplaints_map o (r.message · seen) (r.grounds o.required seen)

theorem unworded_of_runsChecks {r : Rule} {seen : Observed} {o : Settings} (h : r.RunsChecks o.required seen) :
    r.unworded seen o = Failure.ofComplaints o ((r.failedNames seen).map fun k => (k, k)) := by
  rw [unworded, grounds, (r.runsChecks_iff o.required seen).1 h]

theorem unworded_of_missing (r : Rule) (o : Settings) :
    r.unworded .missing o = if o.required then Failure.ofComplaints o [("isRequired", "required")] else none := by
  unfold unworded grounds Presence.judge
  cases o.required <;> rfl

theorem unworded_of_open_slot {r : Rule} {seen : Observed} {o : Settings} (hseen : seen ≠ .missing)
    (hopen : o.required = true ∧ r.target.isGroup = true ∧ none ∈ seen.slots) :
    r.unworded seen o = Failure.ofComplaints o [("isRequired", "arrayMiss")] := by
  have hmissing : seen.isMissing = false := by
    cases seen with
    | missing => exact absurd rfl hseen
    | _ => rfl
  have hany : seen.slots.any Option.isNone = true := List.any_eq_true.2 ⟨none, hopen.2.2, rfl⟩
  rw [unworded, grounds, Presence.judge, hmissing, hopen.1, hopen.2.1, hany]
  rfl

/-- **Where the checks are run, each is worded under its own name.** -/
theorem eq_of_get?_unworded {r : Rule} {seen : Observed} {o : Settings} (h : r.RunsChecks o.required seen)
    {names : Table String} (hunworded : r.unworded seen o = some (.byCheck names)) {k c : String}
    (hk : names.get? k = some c) : c = k := by
  have hself : ∀ ks : List String, (Table.ofList (ks.map fun k => (k, k))).get? k = some c → c = k := by
    intro ks hk
    rw [Table.get?_ofList_map fun k => k] at hk
    split at hk
    · exact (Option.some.inj hk).symm
    · cases hk
  rw [unworded_of_runsChecks h] at hunworded
  obtain ⟨_, -, he⟩ | ⟨-, he | he⟩ := Failure.cases_of_ofComplaints hunworded
  · cases he
  · cases he
    rw [← List.map_take] at hk
    exact hself _ hk
  · cases he
    exact hself _ hk

theorem causes_of_runsChecks {r : Rule} {required : Bool} {seen : Observed} (h : r.RunsChecks required seen) :
    r.causes required seen = r.failedNames seen := by
  rw [causes, (r.runsChecks_iff required seen).1 h]

theorem mem_of_mem_causes_of_not_runsChecks {r : Rule} {required : Bool} {seen : Observed}
    (h : ¬r.RunsChecks required seen) {c : String} (hc : c ∈ r.causes required seen) :
    c ∈ ["required", "arrayMiss"] := by
  rw [causes] at hc
  cases hpresence : Presence.judge r.target required seen with
  | excused => rw [hpresence] at hc; cases hc
  | absent reason =>
    rw [hpresence] at hc
    exact List.mem_singleton.1 hc ▸ Presence.mem_of_judge_eq_absent hpresence
  | present => exact absurd ((r.runsChecks_iff required seen).2 hpresence) h

theorem mem_of_mem_failedNames {r : Rule} {seen : Observed} {k : String} (h : k ∈ r.failedNames seen) :
    k ∈ ["len", "empty"] ∨ k ∈ r.checks.keys := by
  simp only [failedNames, List.mem_append] at h
  obtain (h | h) | h := h
  · split at h
    · exact .inl (List.mem_singleton.1 h ▸ List.mem_cons_self)
    · cases h
  · split at h
    · exact .inl (List.mem_singleton.1 h ▸ List.mem_cons_of_mem _ List.mem_cons_self)
    · cases h
  · obtain ⟨e, he, rfl⟩ := List.mem_map.1 h
    exact .inr (List.mem_map_of_mem (List.mem_filter.1 he).1)

/-! ## One wording more -/

section NewWording

variable {r : Rule} {check : String} {w : Wording Phrase} {seen : Observed}

theorem sameFrame_add_wording (r : Rule) (check : String) (w : Wording Phrase) :
    r.SameFrame (r.add (.wording check w)) :=
  ⟨rfl, rfl, rfl⟩

theorem get?_wordings_add_wording (r : Rule) (check : String) (w : Wording Phrase) (c : String) :
    (r.add (.wording check w)).wordings.get? c = if c = check then some w else r.wordings.get? c :=
  Table.get?_insert r.wordings check w c

theorem message_add_wording_self (r : Rule) (check : String) (w : Wording Phrase) (seen : Observed) :
    (r.add (.wording check w)).message check seen = w.render seen (r.add (.wording check w)).outline := by
  rw [message, get?_wordings_add_wording, if_pos rfl]

theorem message_add_wording_of_ne {c : String} (hc : c ≠ check)
    (hphrase : r.PhraseAnswersOn (r.add (.wording check w)).outline seen c) :
    (r.add (.wording check w)).message c seen = r.message c seen := by
  have hwording : (r.add (.wording check w)).wordings.get? c = r.wordings.get? c := by
    rw [get?_wordings_add_wording, if_neg hc]
  exact message_eq_of_answers (sameFrame_add_wording r check w) hwording hphrase

theorem failedNames_add_wording (hchecks : r.ChecksAnswerOn (r.add (.wording check w)).outline seen) :
    (r.add (.wording check w)).failedNames seen = r.failedNames seen := by
  have hown : (r.checks.entries.filter fun e => !e.2 seen (r.add (.wording check w)).outline)
      = r.checks.entries.filter fun e => !e.2 seen r.outline :=
    List.filter_congr fun e he => by rw [hchecks e he]
  unfold failedNames
  rw [← hown]
  rfl

/-- **A wording does not touch the unworded form.** -/
theorem unworded_add_wording (hchecks : r.ChecksAnswerOn (r.add (.wording check w)).outline seen) (o : Settings) :
    (r.add (.wording check w)).unworded seen o = r.unworded seen o := by
  rw [unworded, grounds, failedNames_add_wording hchecks, target_add]
  rfl

theorem judge_add_wording_eq_map_unworded (hchecks : r.ChecksAnswerOn (r.add (.wording check w)).outline seen)
    (o : Settings) :
    (r.add (.wording check w)).judge seen o =
      (r.unworded seen o).map (Failure.reworded ((r.add (.wording check w)).message · seen)) := by
  rw [judge_eq_map_unworded, unworded_add_wording hchecks]

theorem rel_judge_add_wording (hchecks : r.ChecksAnswerOn (r.add (.wording check w)).outline seen) (o : Settings) :
    Option.Rel Failure.SameShape (r.judge seen o) ((r.add (.wording check w)).judge seen o) := by
  rw [judge_eq_map_unworded, judge_add_wording_eq_map_unworded hchecks]
  cases r.unworded seen o with
  | none => exact .none
  | some e => exact .some (e.sameShape_reworded _ _)

section Answers

variable (hchecks : r.ChecksAnswerOn (r.add (.wording check w)).outline seen)
  (hphrases : ∀ c, c ≠ check → r.PhraseAnswersOn (r.add (.wording check w)).outline seen c)

include hchecks hphrases

/-- **A name that nothing is worded under can be reworded freely.** -/
theorem judge_add_wording_of_not_mem_messages {o : Settings}
    (h : ∀ e, r.unworded seen o = some e → check ∉ e.messages) :
    (r.add (.wording check w)).judge seen o = r.judge seen o := by
  rw [judge_add_wording_eq_map_unworded hchecks, judge_eq_map_unworded]
  cases hunworded : r.unworded seen o with
  | none => rfl
  | some e =>
    have hsay : ∀ c ∈ e.messages, (r.add (.wording check w)).message c seen = r.message c seen := fun c hc =>
      message_add_wording_of_ne (fun heq => h e hunworded (heq ▸ hc)) (hphrases c fun heq => h e hunworded (heq ▸ hc))
    rw [Option.map_some, Option.map_some, Failure.reworded_congr hsay]

theorem judge_add_wording_of_not_mem_causes {o : Settings} (h : check ∉ r.causes o.required seen) :
    (r.add (.wording check w)).judge seen o = r.judge seen o := by
  refine judge_add_wording_of_not_mem_messages hchecks hphrases fun e hunworded hmem => h ?_
  rw [← map_snd_grounds]
  exact Failure.mem_of_mem_messages hunworded hmem

/-- **An absence is reworded under `required` and `arrayMiss` only**, and not under the name it is put down under. -/
theorem judge_add_wording_of_not_runsChecks {o : Settings} (hruns : ¬r.RunsChecks o.required seen)
    (hcheck : check ∉ ["required", "arrayMiss"]) : (r.add (.wording check w)).judge seen o = r.judge seen o :=
  judge_add_wording_of_not_mem_causes hchecks hphrases fun hcause =>
    hcheck (mem_of_mem_causes_of_not_runsChecks hruns hcause)

/-- **The checks that are run keep their messages**, but for one of that name. -/
theorem get?_judge_add_wording {o : Settings} (hruns : r.RunsChecks o.required seen) {t t' : Table String}
    (ht : r.judge seen o = some (.byCheck t)) (ht' : (r.add (.wording check w)).judge seen o = some (.byCheck t'))
    {k : String} (hk : k ≠ check) : t'.get? k = t.get? k := by
  rw [judge_eq_map_unworded] at ht
  rw [judge_add_wording_eq_map_unworded hchecks] at ht'
  obtain ⟨names, hunworded, rfl⟩ := Failure.exists_of_map_reworded_eq_some ht
  rw [hunworded] at ht'
  cases ht'
  -- both tables are the one table of names, put into words
  rw [Table.get?_map, Table.get?_map]
  cases hc : names.get? k with
  | none => rfl
  | some c =>
    have hmessage := message_add_wording_of_ne hk (hphrases k hk)
    rw [Option.map_some, Option.map_some, eq_of_get?_unworded hruns hunworded hc, hmessage]

theorem judge_add_wording_of_reason {o : Settings} (hruns : r.RunsChecks o.required seen)
    (hreason : check ∈ ["required", "arrayMiss"]) (hown : check ∉ r.checks.keys) :
    (r.add (.wording check w)).judge seen o = r.judge seen o := by
  have hapart : ∀ c ∈ ["required", "arrayMiss"], c ∉ ["len", "empty"] := by decide
  refine judge_add_wording_of_not_mem_causes hchecks hphrases fun hcause => ?_
  rw [causes_of_runsChecks hruns] at hcause
  obtain hparameter | hkey := mem_of_mem_failedNames hcause
  · exact hapart check hreason hparameter
  · exact hown hkey

end Answers

end NewWording

/-- **A new wording changes the words under its own name and nothing else.**  Suppose that the checks answer as they
did, and what the rule works out to say under other names as well.  Then each message is as it was, but for the one
under the name, which is the new wording seen with the new rule.  One unworded judgement is put into these words and
into those, so that a value fails where it failed, in the same shape and with the same names in the same order; and
where nothing in it is worded under the name, the judgement is as it was.  An absence is put down under `isRequired` and
worded under `required` or `arrayMiss`, so that a wording for another name, be it `isRequired`, is never heard in it.  A
check that is run is worded under its own name, so that a wording for another name, be it `required` or `arrayMiss`, is
never heard there. -/
theorem judge_add_wording (r : Rule) (check : String) (w : Wording Phrase) (seen : Observed) (o : Settings)
    (hchecks : r.ChecksAnswerOn (r.add (.wording check w)).outline seen)
    (hphrases : ∀ c, c ≠ check → r.PhraseAnswersOn (r.add (.wording check w)).outline seen c) :
    let r' := r.add (.wording check w)
    ((∀ c, c ≠ check → r'.message c seen = r.message c seen) ∧ r'.message check seen = w.render seen r'.outline) ∧
    (Option.Rel Failure.SameShape (r.judge seen o) (r'.judge seen o) ∧
      r.judge seen o = (r.unworded seen o).map (Failure.reworded (r.message · seen)) ∧
      r'.judge seen o = (r.unworded seen o).map (Failure.reworded (r'.message · seen)) ∧
      ((∀ e, r.unworded seen o = some e → check ∉ e.messages) → r'.judge seen o = r.judge seen o)) ∧
    ((seen = .missing →
        r.unworded seen o = if o.required then Failure.ofComplaints o [("isRequired", "required")] else none) ∧
      (seen ≠ .missing → o.required = true ∧ r.target.isGroup = true ∧ none ∈ seen.slots →
        r.unworded seen o = Failure.ofComplaints o [("isRequired", "arrayMiss")]) ∧
      (¬r.RunsChecks o.required seen → check ∉ ["required", "arrayMiss"] → r'.judge seen o = r.judge seen o)) ∧
    (r.RunsChecks o.required seen →
      r.unworded seen o = Failure.ofComplaints o ((r.failedNames seen).map fun k => (k, k)) ∧
      (∀ k, k ≠ check → r.unworded seen o = some (.bare k) → r'.judge seen o = r.judge seen o) ∧
      (∀ t t', r.judge seen o = some (.byCheck t) → r'.judge seen o = some (.byCheck t') →
        ∀ k, k ≠ check → t'.get? k = t.get? k) ∧
      (check ∈ ["required", "arrayMiss"] → check ∉ r.checks.keys → r'.judge seen o = r.judge seen o)) := by
  intro r'
  have hmessage : ∀ c, c ≠ check → r'.message c seen = r.message c seen :=
    fun c hc => message_add_wording_of_ne hc (hphrases c hc)
  have hunheard : (∀ e, r.unworded seen o = some e → check ∉ e.messages) → r'.judge seen o = r.judge seen o :=
    judge_add_wording_of_not_mem_messages hchecks hphrases
  refine ⟨⟨hmessage, message_add_wording_self r check w seen⟩,
    ⟨rel_judge_add_wording hchecks o, judge_eq_map_unworded r seen o, judge_add_wording_eq_map_unworded hchecks o,
      hunheard⟩,
    ⟨?_, unworded_of_open_slot, judge_add_wording_of_not_runsChecks hchecks hphrases⟩,
    fun hruns => ⟨unworded_of_runsChecks hruns, fun k hk hunworded => ?_, fun t t' ht ht' k hk => ?_,
      judge_add_wording_of_reason hchecks hphrases hruns⟩⟩
  · rintro rfl
    exact unworded_of_missing r o
  · refine hunheard fun e he hmem => ?_
    cases hunworded.symm.trans he
    exact hk (List.mem_singleton.1 hmem).symm
  · exact get?_judge_add_wording hchecks hphrases hruns ht ht' hk

/-- A check of the rule's own is called `required`, as the wording of an absence is.  A new wording for that name, which
lists the names of all wordings, is heard where the check fails and where the nickname is missing, and not under `len`;
one for `isRequired` is not heard at all. -/
theorem judge_add_wording_shared_name :
    let r : Rule := (on (.single "nick")).addAll [.len (.atLeast 10),
      .check "required" fun _ outline => outline.len.isNone,
      .wording "len" (.computed fun _ outline => outline.target.text)]
    let w : Wording Phrase := .computed fun _ outline => ",".intercalate outline.wordings.keys
    let seen : Observed := .single (.string "3xt")
    let full : Settings := ⟨true, false, false⟩
    (∀ name, ∀ v, r.ChecksAnswerOn (r.add (.wording name w)).outline v ∧
      ∀ c, c ≠ name → r.PhraseAnswersOn (r.add (.wording name w)).outline v c) ∧
      (∃ t t', r.judge seen full = some (.byCheck t) ∧
        (r.add (.wording "required" w)).judge seen full = some (.byCheck t') ∧
        t'.keys = t.keys ∧ t'.get? "len" = t.get? "len" ∧ t'.get? "required" = some "len,required") ∧
      (r.add (.wording "required" w)).judge .missing full = some (.byCheck (.ofList [("isRequired", "len,required")])) ∧
      (r.add (.wording "isRequired" w)).judge .missing full = r.judge .missing full := by
  intro r w seen full
  have hchecks : ∀ name v, r.ChecksAnswerOn (r.add (.wording name w)).outline v := by
    intro name v e he
    obtain rfl := List.mem_singleton.1 he
    rfl
  have hphrases : ∀ name v c, c ≠ name → r.PhraseAnswersOn (r.add (.wording name w)).outline v c := by
    intro name v c _ body hw
    cases List.mem_singleton.1 ((r.wordings.get?_eq_some_iff c (.computed body)).1 hw)
    rfl
  have hruns : r.RunsChecks full.required seen := ⟨Observed.noConfusion, fun h => Bool.noConfusion h.2.1⟩
  obtain ⟨⟨-, hself⟩, ⟨hshape, hjudge, hjudge', -⟩, -, hrun⟩ :=
    judge_add_wording r "required" w seen full (hchecks _ _) (hphrases _ _)
  obtain ⟨-, ⟨-, -, hmissing, -⟩, ⟨habsence, -, -⟩, -⟩ :=
    judge_add_wording r "required" w .missing full (hchecks _ _) (hphrases _ _)
  obtain ⟨-, -, ⟨-, -, hunheard⟩, -⟩ :=
    judge_add_wording r "isRequired" w .missing full (hchecks _ _) (hphrases _ _)
  obtain ⟨hunworded, -, hothers, -⟩ := hrun hruns
  have hfails : r.failedNames seen = ["len", "required"] := by decide
  have hnames : r.unworded seen full = some (.byCheck (.ofList [("len", "len"), ("required", "required")])) := by
    rw [hunworded, hfails]
    rfl
  rw [hnames] at hjudge hjudge'
  refine ⟨fun name v => ⟨hchecks name v, hphrases name v⟩, ⟨_, _, hjudge, hjudge', ?_,
    hothers _ _ hjudge hjudge' "len" (by decide), ?_⟩, ?_, hunheard (fun h => h.1 rfl) (by decide)⟩
  · rw [hjudge, hjudge'] at hshape
    cases hshape with
    | some hkeys => exact hkeys
  · have hname : (Table.ofList [("len", "len"), ("required", "required")]).get? "required" = some "required" := by
      decide
    rw [Table.get?_map, hname, Option.map_some, hself]
    decide +kernel
  · rw [hmissing, habsence rfl]
    decide +kernel

end RuleWith
end FieldRules
