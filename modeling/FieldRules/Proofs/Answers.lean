import FieldRules.Proofs.Complaints
/-!
# Answers — bodies that are shown another outline

The check of a rule's own and the computed message see the outline of the rule they belong to, so that whatever is
added to a rule is seen by them, and could change what they say.  What follows from an addition can therefore be told
only if they answer on the new outline as on the old one (`ChecksAnswerOn`, `PhraseAnswersOn`).  **If they do, each
check passes as before and each message reads as before**, as long as the target and the parameters are the same
(`SameFrame`).
-/
namespace FieldRules
namespace RuleWith

/-- The same target and the same parameters. -/
structure SameFrame (r r' : Rule) : Prop where
  target : r'.target = r.target
  len : r'.len = r.len
  empty : r'.empty = r.empty

/-- The rule's own checks judge the value on `outline` as on the outline of the rule. -/
def ChecksAnswerOn (r : Rule) (outline : Outline) (seen : Observed) : Prop :=
  ∀ e ∈ r.checks.entries, e.2 seen outline = e.2 seen r.outline

/-- If the rule works out what it says of `check`, it says the same on `outline` as on the outline of the rule. -/
def PhraseAnswersOn (r : Rule) (outline : Outline) (seen : Observed) (check : String) : Prop :=
  ∀ body, r.wordings.get? check = some (.computed body) → body seen outline = body seen r.outline

section Answers

variable {r r' : Rule} {seen : Observed}

theorem message_eq_of_answers {check : String} (hframe : r.SameFrame r')
    (hwording : r'.wordings.get? check = r.wordings.get? check) (hanswers : r.PhraseAnswersOn r'.outline seen check) :
    r'.message check seen = r.message check seen := by
  unfold message
  rw [hwording]
  cases hw : r.wordings.get? check with
  | none => simp only [Wording.default?, hframe.target, hframe.len]
  | some w =>
    cases w with
    | fixed text => rfl
    | computed body => exact hanswers body hw

theorem passes_eq_of_answers (hframe : r.SameFrame r') (hanswers : r.ChecksAnswerOn r'.outline seen) {c : Check}
    (hc : c ∈ r.listed) : c.passes seen r' = c.passes seen r := by
  obtain hc | hc := List.mem_append.1 hc
  · obtain ⟨p, -, rfl⟩ := List.mem_map.1 hc
    cases p with
    | len => simp only [Check.passes, Parameter.passes, hframe.len]
    | empty => simp only [Check.passes, Parameter.passes, hframe.empty]
  · obtain ⟨e, he, rfl⟩ := List.mem_map.1 hc
    exact hanswers e he

theorem complaintsOf_congr {checks : List Check} (hpasses : ∀ c ∈ checks, c.passes seen r' = c.passes seen r)
    (hmessage : ∀ c ∈ checks, r'.message c.name seen = r.message c.name seen) :
    r'.complaintsOf seen checks = r.complaintsOf seen checks := by
  have hfails : (checks.filter fun c => !c.passes seen r') = checks.filter fun c => !c.passes seen r :=
    List.filter_congr fun c hc => by rw [hpasses c hc]
  unfold complaintsOf
  rw [hfails]
  exact List.map_congr_left fun c hc => by rw [hmessage c (List.mem_filter.1 hc).1]

/-- **The checks of a rule come to the same under a rule that has them answer alike.** -/
theorem complaintsOf_eq_of_answers (hframe : r.SameFrame r')
    (hwordings : ∀ check, r'.wordings.get? check = r.wordings.get? check)
    (hchecks : r.ChecksAnswerOn r'.outline seen) (hphrases : ∀ check, r.PhraseAnswersOn r'.outline seen check) :
    r'.complaintsOf seen r.listed = r.complaintsOf seen r.listed :=
  complaintsOf_congr (fun _ hc => passes_eq_of_answers hframe hchecks hc)
    fun c _ => message_eq_of_answers hframe (hwordings c.name) (hphrases c.name)

theorem complaints_eq_of_answers (hframe : r.SameFrame r') (hlisted : r'.listed = r.listed)
    (hwordings : ∀ check, r'.wordings.get? check = r.wordings.get? check)
    (hchecks : r.ChecksAnswerOn r'.outline seen) (hphrases : ∀ check, r.PhraseAnswersOn r'.outline seen check)
    (required : Bool) : r'.complaints required seen = r.complaints required seen := by
  unfold complaints
  rw [hframe.target, hlisted, complaintsOf_eq_of_answers hframe hwordings hchecks hphrases]
  cases Presence.judge r.target required seen with
  | absent reason => simp only [message_eq_of_answers hframe (hwordings reason) (hphrases reason)]
  | _ => rfl

end Answers

end RuleWith
end FieldRules
