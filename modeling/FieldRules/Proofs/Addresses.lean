import FieldRules.Text.Email
import Mathlib.Computability.Language
import Mathlib.Data.List.Basic
/-!
# Addresses — which texts are e-mail addresses

A text is read as an address from the left: the local part as far as local characters go, an `@`, and the rest split at
its dots.  What that comes to is said here twice, with no word on how it is read.  The grammar names the parts: a local
part, an `@`, and labels with dots between them (`Email.IsAddress`).  The pattern is the regular language that puts the
same texts together from single characters, repetitions and an option (`Email.pattern`).

**A text is read as an address exactly when the grammar describes it** (`isEmail_iff`), for the `@` is no local
character, **and exactly when the pattern matches it** (`Email.mem_pattern_iff`).  The pattern does not say where a
label ends: the characters inside of one may be those at its ends.  But no label reaches over a dot, so that however a
match is found, its labels are the pieces between the dots.
-/
namespace FieldRules
namespace Text
namespace Email

/-! ## The grammar -/

structure IsLocal (cs : List Char) : Prop where
  ne_nil : cs ≠ []
  chars : ∀ c ∈ cs, c.isAlphanum = true ∨ c ∈ marks

structure IsLabel (cs : List Char) : Prop where
  ne_nil : cs ≠ []
  length_le : cs.length ≤ 63
  chars : ∀ c ∈ cs, c.isAlphanum = true ∨ c = '-'
  first : ∀ c ∈ cs.head?, c.isAlphanum = true
  last : ∀ c ∈ cs.getLast?, c.isAlphanum = true

/-- At least two pieces between the dots, all of them labels. -/
structure IsDomain (cs : List Char) : Prop where
  two_le : 2 ≤ (cs.splitOn '.').length
  labels : ∀ label ∈ cs.splitOn '.', IsLabel label

def IsAddress (cs : List Char) : Prop :=
  ∃ name domain, cs = name ++ '@' :: domain ∧ IsLocal name ∧ IsDomain domain

theorem isLocalChar_iff (c : Char) : isLocalChar c = true ↔ c.isAlphanum = true ∨ c ∈ marks := by
  rw [isLocalChar, Bool.or_eq_true, List.contains_iff_mem]

theorem isLabelChar_iff (c : Char) : isLabelChar c = true ↔ c.isAlphanum = true ∨ c = '-' := by
  rw [isLabelChar, Bool.or_eq_true, beq_iff_eq]

theorem isLocal_iff (cs : List Char) : isLocal cs = true ↔ IsLocal cs := by
  unfold isLocal
  rw [Bool.and_eq_true, Bool.not_eq_true', List.isEmpty_eq_false_iff, List.all_eq_true]
  simp only [isLocalChar_iff]
  exact ⟨fun h => ⟨h.1, h.2⟩, fun h => ⟨h.ne_nil, h.chars⟩⟩

theorem isLabel_iff (cs : List Char) : isLabel cs = true ↔ IsLabel cs := by
  unfold isLabel
  simp only [Bool.and_eq_true, decide_eq_true_eq, List.all_eq_true, isLabelChar_iff, Option.any_eq_true]
  constructor
  · rintro ⟨⟨⟨hlength, hchars⟩, c, hc, hfirst⟩, d, hd, hlast⟩
    refine ⟨fun hnil => ?_, hlength, hchars, fun c' hc' => ?_, fun d' hd' => ?_⟩
    · rw [hnil] at hc
      cases hc
    · rwa [Option.mem_unique hc' hc]
    · rwa [Option.mem_unique hd' hd]
  · intro h
    refine ⟨⟨⟨h.length_le, h.chars⟩, cs.head h.ne_nil, ?_, ?_⟩, cs.getLast h.ne_nil, ?_, ?_⟩
    · exact List.head?_eq_some_head h.ne_nil
    · exact h.first _ (List.head?_eq_some_head h.ne_nil)
    · exact List.getLast?_eq_some_getLast h.ne_nil
    · exact h.last _ (List.getLast?_eq_some_getLast h.ne_nil)

theorem isDomain_iff (cs : List Char) : isDomain cs = true ↔ IsDomain cs := by
  unfold isDomain
  rw [Bool.and_eq_true, decide_eq_true_eq, List.all_eq_true]
  simp only [isLabel_iff]
  exact ⟨fun h => ⟨h.1, h.2⟩, fun h => ⟨h.two_le, h.labels⟩⟩

/-- **A local part ends at the first `@`**, wherever the text goes on from there. -/
theorem IsLocal.takeWhile_append {name : List Char} (h : IsLocal name) (rest : List Char) :
    (name ++ '@' :: rest).takeWhile isLocalChar = name ∧
      (name ++ '@' :: rest).dropWhile isLocalChar = '@' :: rest := by
  have hname : ∀ c ∈ name, isLocalChar c = true := fun c hc => (isLocalChar_iff c).2 (h.chars c hc)
  have hat : ¬isLocalChar '@' = true := by rw [isLocalChar_at]; exact Bool.false_ne_true
  constructor
  · rw [List.takeWhile_append_of_pos hname, List.takeWhile_cons_of_neg hat, List.append_nil]
  · rw [List.dropWhile_append_of_pos hname, List.dropWhile_cons_of_neg hat]

end Email

/-- **A text is read as an address exactly when the grammar describes it** and it is not too long. -/
theorem isEmail_iff (s : String) : isEmail s = true ↔ s.utf8ByteSize ≤ 254 ∧ Email.IsAddress s.toList := by
  unfold isEmail
  rw [Bool.and_eq_true, decide_eq_true_eq]
  refine and_congr_right fun _ => ?_
  constructor
  · intro h
    split at h
    · rename_i domain hdrop
      rw [Bool.and_eq_true, Email.isLocal_iff, Email.isDomain_iff] at h
      refine ⟨_, domain, ?_, h.1, h.2⟩
      rw [← hdrop, List.takeWhile_append_dropWhile]
    · cases h
  · rintro ⟨name, domain, hs, hname, hdomain⟩
    obtain ⟨htake, hdrop⟩ := hname.takeWhile_append domain
    rw [hs, htake, hdrop]
    exact Bool.and_eq_true_iff.2 ⟨(Email.isLocal_iff name).2 hname, (Email.isDomain_iff domain).2 hdomain⟩

namespace Email

open Computability

/-! ## The pattern -/

/-- The texts of one character that passes a test. -/
def one (test : Char → Bool) : Language Char := {cs | ∃ c, cs = [c] ∧ test c = true}

/-- No more than `n` texts of a language, one after the other. -/
def atMost (n : Nat) (L : Language Char) : Language Char := {cs | ∃ k ≤ n, cs ∈ L ^ k}

/-- At least one text of a language, one after the other. -/
def oneOrMore (L : Language Char) : Language Char := L * L∗

/-- A letter or digit, and behind it either nothing or up to 61 label characters and again a letter or digit. -/
def labels : Language Char :=
  one Char.isAlphanum * (1 + atMost 61 (one isLabelChar) * one Char.isAlphanum)

def domains : Language Char := labels * oneOrMore (one (· == '.') * labels)

/-- As one line, with `a` for a letter or digit, `n` for a local character and `l` for a label character:
`n+@a(l{0,61}a)?(\.a(l{0,61}a)?)+`. -/
def pattern : Language Char := oneOrMore (one isLocalChar) * one (· == '@') * domains

section Repetitions

variable (test : Char → Bool)

theorem mem_one_iff (cs : List Char) : cs ∈ one test ↔ ∃ c, cs = [c] ∧ test c = true := Iff.rfl

theorem mem_one_beq_iff (c : Char) (cs : List Char) : cs ∈ one (· == c) ↔ cs = [c] := by
  simp [mem_one_iff]

/-- A repetition of single characters fixes how many there are and of what kind, and nothing else. -/
theorem mem_one_pow_iff : ∀ (n : Nat) (cs : List Char),
    cs ∈ one test ^ n ↔ cs.length = n ∧ ∀ c ∈ cs, test c = true
  | 0, cs => by
    rw [pow_zero, Language.mem_one, List.length_eq_zero_iff]
    exact ⟨fun h => ⟨h, by simp [h]⟩, And.left⟩
  | n + 1, cs => by
    rw [pow_succ', Language.mem_mul]
    constructor
    · rintro ⟨_, ⟨c, rfl, hc⟩, rest, hrest, rfl⟩
      obtain ⟨hlength, hchars⟩ := (mem_one_pow_iff n rest).1 hrest
      exact ⟨by simp [hlength], List.forall_mem_cons.2 ⟨hc, hchars⟩⟩
    · rintro ⟨hlength, hchars⟩
      cases cs with
      | nil => cases hlength
      | cons c rest =>
        obtain ⟨hc, hrest⟩ := List.forall_mem_cons.1 hchars
        exact ⟨[c], ⟨c, rfl, hc⟩, rest, (mem_one_pow_iff n rest).2 ⟨Nat.succ.inj hlength, hrest⟩, rfl⟩

theorem mem_atMost_one_iff (n : Nat) (cs : List Char) :
    cs ∈ atMost n (one test) ↔ cs.length ≤ n ∧ ∀ c ∈ cs, test c = true := by
  constructor
  · rintro ⟨k, hk, hcs⟩
    obtain ⟨rfl, hchars⟩ := (mem_one_pow_iff test k cs).1 hcs
    exact ⟨hk, hchars⟩
  · rintro ⟨hlength, hchars⟩
    exact ⟨cs.length, hlength, (mem_one_pow_iff test _ cs).2 ⟨rfl, hchars⟩⟩

theorem mem_oneOrMore_iff (L : Language Char) (cs : List Char) : cs ∈ oneOrMore L ↔ ∃ n, cs ∈ L ^ (n + 1) := by
  rw [oneOrMore, Language.kstar_eq_iSup_pow, Language.mul_iSup, Language.mem_iSup]
  simp only [pow_succ']

theorem mem_oneOrMore_one_iff (cs : List Char) :
    cs ∈ oneOrMore (one test) ↔ cs ≠ [] ∧ ∀ c ∈ cs, test c = true := by
  simp only [mem_oneOrMore_iff, mem_one_pow_iff]
  rw [exists_and_right, ← List.length_pos_iff, Nat.exists_eq_add_one]

end Repetitions

theorem mem_locals_iff (cs : List Char) : cs ∈ oneOrMore (one isLocalChar) ↔ IsLocal cs := by
  rw [mem_oneOrMore_one_iff]
  simp only [isLocalChar_iff]
  exact ⟨fun h => ⟨h.1, h.2⟩, fun h => ⟨h.ne_nil, h.chars⟩⟩

/-- **The pattern of a label has its characters at both ends and its length between them.** -/
theorem mem_labels_iff (cs : List Char) : cs ∈ labels ↔ IsLabel cs := by
  have hlast : ∀ (a b : Char) (mid : List Char), (a :: (mid ++ [b])).getLast? = some b := fun a b mid => by
    rw [← List.cons_append, List.getLast?_concat]
  rw [labels, Language.mem_mul]
  constructor
  · rintro ⟨_, ⟨a, rfl, ha⟩, rest, hrest, rfl⟩
    rcases (Language.mem_add _ _ _).1 hrest with hnil | hlong
    · rw [(Language.mem_one rest).1 hnil]
      exact ⟨by simp, by simp, by simp [ha], by simp [ha], by simp [ha]⟩
    · obtain ⟨mid, hmid, _, ⟨b, rfl, hb⟩, rfl⟩ := Language.mem_mul.1 hlong
      obtain ⟨hlength, hchars⟩ := (mem_atMost_one_iff isLabelChar 61 mid).1 hmid
      refine ⟨by simp, by simp; omega, fun c hc => ?_, by simp [ha], fun c hc => ?_⟩
      · simp only [List.mem_append, List.mem_singleton] at hc
        rcases hc with rfl | hc | rfl
        · exact .inl ha
        · exact (isLabelChar_iff c).1 (hchars c hc)
        · exact .inl hb
      · have hcb : b = c := Option.some.inj ((hlast a b mid).symm.trans hc)
        exact hcb ▸ hb
  · intro h
    cases cs with
    | nil => exact absurd rfl h.ne_nil
    | cons a rest =>
      refine ⟨[a], ⟨a, rfl, h.first a rfl⟩, rest, ?_, rfl⟩
      rcases List.eq_nil_or_concat rest with rfl | ⟨mid, b, rfl⟩
      · exact .inl rfl
      · -- both ends are taken away, and of 63 characters at most 61 are left
        have hlength := h.length_le
        rw [List.concat_eq_append] at h ⊢
        simp only [List.concat_eq_append, List.length_cons, List.length_append, List.length_nil] at hlength
        have hmid : mid ∈ atMost 61 (one isLabelChar) := by
          refine (mem_atMost_one_iff isLabelChar 61 mid).2 ⟨by omega, fun c hc => (isLabelChar_iff c).2 ?_⟩
          exact h.chars c (by simp [hc])
        exact .inr (Language.append_mem_mul hmid ⟨b, rfl, h.last b (hlast a b mid)⟩)

/-! ### Dots -/

theorem IsLabel.dot_not_mem {cs : List Char} (h : IsLabel cs) : '.' ∉ cs := by
  intro hdot
  have hlabel := (isLabelChar_iff '.').2 (h.chars '.' hdot)
  rw [isLabelChar_dot] at hlabel
  cases hlabel

/-- Labels with dots between them are a first label and the others, each behind a dot. -/
theorem intercalate_dot_cons (first : List Char) : ∀ rest : List (List Char),
    ['.'].intercalate (first :: rest) = first ++ rest.flatMap ('.' :: ·)
  | [] => by simp
  | label :: rest => by
    rw [List.intercalate_cons_cons, intercalate_dot_cons label rest, List.flatMap_cons, List.append_assoc]
    rfl

/-- Every text is its first piece and the others, each behind a dot. -/
theorem exists_pieces (cs : List Char) :
    ∃ first rest, cs.splitOn '.' = first :: rest ∧ cs = first ++ rest.flatMap ('.' :: ·) := by
  have hjoin : ['.'].intercalate (cs.splitOn '.') = cs := List.intercalate_splitOn '.'
  obtain ⟨first, rest, hpieces⟩ := List.exists_cons_of_ne_nil (List.splitOn_ne_nil '.' cs)
  rw [hpieces, intercalate_dot_cons] at hjoin
  exact ⟨first, rest, hpieces, hjoin.symm⟩

theorem mem_dotted_pow_iff : ∀ (n : Nat) (cs : List Char),
    cs ∈ (one (· == '.') * labels) ^ n ↔
      ∃ ls : List (List Char), ls.length = n ∧ (∀ label ∈ ls, IsLabel label) ∧ cs = ls.flatMap ('.' :: ·)
  | 0, cs => by
    rw [pow_zero, Language.mem_one]
    constructor
    · rintro rfl
      exact ⟨[], rfl, by simp, rfl⟩
    · rintro ⟨ls, hlength, -, rfl⟩
      rw [List.length_eq_zero_iff.1 hlength, List.flatMap_nil]
  | n + 1, cs => by
    rw [pow_succ', Language.mem_mul]
    constructor
    · rintro ⟨_, ⟨dot, hdot, label, hlabel, rfl⟩, rest, hrest, rfl⟩
      obtain ⟨ls, hlength, hls, rfl⟩ := (mem_dotted_pow_iff n rest).1 hrest
      rw [(mem_one_beq_iff '.' dot).1 hdot]
      exact ⟨label :: ls, by simp [hlength], List.forall_mem_cons.2 ⟨(mem_labels_iff label).1 hlabel, hls⟩, by simp⟩
    · rintro ⟨ls, hlength, hls, rfl⟩
      cases ls with
      | nil => cases hlength
      | cons label ls =>
        obtain ⟨hlabel, hls⟩ := List.forall_mem_cons.1 hls
        refine ⟨'.' :: label, ?_, _, (mem_dotted_pow_iff n _).2 ⟨ls, Nat.succ.inj hlength, hls, rfl⟩, rfl⟩
        exact Language.append_mem_mul ((mem_one_beq_iff '.' ['.']).2 rfl) ((mem_labels_iff label).2 hlabel)

/-- **The labels of a match are the pieces between the dots**, since no label reaches over one. -/
theorem mem_domains_iff (cs : List Char) : cs ∈ domains ↔ IsDomain cs := by
  rw [domains, Language.mem_mul]
  constructor
  · rintro ⟨first, hfirst, rest, hrest, rfl⟩
    obtain ⟨n, hpow⟩ := (mem_oneOrMore_iff _ rest).1 hrest
    obtain ⟨ls, hlength, hls, rfl⟩ := (mem_dotted_pow_iff (n + 1) rest).1 hpow
    have hall : ∀ label ∈ first :: ls, IsLabel label :=
      List.forall_mem_cons.2 ⟨(mem_labels_iff first).1 hfirst, hls⟩
    have hsplit : (first ++ ls.flatMap ('.' :: ·)).splitOn '.' = first :: ls := by
      rw [← intercalate_dot_cons]
      exact List.splitOn_intercalate '.' (fun label hlabel => (hall label hlabel).dot_not_mem) (List.cons_ne_nil _ _)
    refine ⟨?_, by rwa [hsplit]⟩
    rw [hsplit, List.length_cons, hlength]
    omega
  · rintro ⟨htwo, hall⟩
    obtain ⟨first, rest, hpieces, rfl⟩ := exists_pieces cs
    rw [hpieces] at htwo hall
    obtain ⟨hfirst, hrest⟩ := List.forall_mem_cons.1 hall
    refine ⟨first, (mem_labels_iff first).2 hfirst, _, (mem_oneOrMore_iff _ _).2 ⟨rest.length - 1, ?_⟩, rfl⟩
    refine (mem_dotted_pow_iff _ _).2 ⟨rest, ?_, hrest, rfl⟩
    rw [List.length_cons] at htwo
    omega

/-- **The pattern matches what the grammar describes.** -/
theorem mem_pattern_iff (cs : List Char) : cs ∈ pattern ↔ IsAddress cs := by
  rw [pattern, Language.mem_mul]
  constructor
  · rintro ⟨_, ⟨name, hname, mark, hmark, rfl⟩, domain, hdomain, rfl⟩
    rw [(mem_one_beq_iff '@' mark).1 hmark]
    exact ⟨name, domain, by simp, (mem_locals_iff name).1 hname, (mem_domains_iff domain).1 hdomain⟩
  · rintro ⟨name, domain, rfl, hname, hdomain⟩
    refine ⟨name ++ ['@'], ?_, domain, (mem_domains_iff domain).2 hdomain, by simp⟩
    exact Language.append_mem_mul ((mem_locals_iff name).2 hname) ((mem_one_beq_iff '@' ['@']).2 rfl)

/-! ## What an address is made of -/

theorem toNat_lt_of_isAlphanum {c : Char} (h : c.isAlphanum = true) : c.toNat < 128 := by
  have hlast : ∀ last : Char, c.val ≤ last.val → last.toNat < 128 → c.toNat < 128 := fun _ => Nat.lt_of_le_of_lt
  rcases Bool.or_eq_true_iff.1 h with halpha | hdigit
  · rcases Bool.or_eq_true_iff.1 halpha with hupper | hlower
    · exact hlast 'Z' (of_decide_eq_true hupper).2 (by decide)
    · exact hlast 'z' (of_decide_eq_true (Bool.and_eq_true_iff.1 hlower).2) (by decide)
  · exact hlast '9' (of_decide_eq_true (Bool.and_eq_true_iff.1 hdigit).2) (by decide)

theorem toNat_lt_of_isLocalChar {c : Char} (h : isLocalChar c = true) : c.toNat < 128 := by
  have hmarks : marks.all (fun m => m.toNat < 128) = true := by decide
  rcases (isLocalChar_iff c).1 h with hc | hc
  · exact toNat_lt_of_isAlphanum hc
  · exact of_decide_eq_true (List.all_eq_true.1 hmarks c hc)

theorem IsLocal.isLocalChar_of_mem {name : List Char} (h : IsLocal name) : ∀ c ∈ name, isLocalChar c = true :=
  fun c hc => (isLocalChar_iff c).2 (h.chars c hc)

/-- What may stand in a label may stand in a local part, and so may a dot. -/
theorem IsDomain.isLocalChar_of_mem {cs : List Char} (h : IsDomain cs) : ∀ c ∈ cs, isLocalChar c = true := by
  intro c hc
  obtain ⟨first, rest, hpieces, rfl⟩ := exists_pieces cs
  have hlabel : ∀ label ∈ first :: rest, c ∈ label → isLocalChar c = true := by
    intro label hmem hc
    rcases (h.labels label (hpieces ▸ hmem)).chars c hc with halnum | rfl
    · exact (isLocalChar_iff c).2 (.inl halnum)
    · decide
  rw [List.mem_append, List.mem_flatMap] at hc
  rcases hc with hc | ⟨label, hmem, hc⟩
  · exact hlabel first List.mem_cons_self hc
  · rcases List.mem_cons.1 hc with rfl | hc
    · decide
    · exact hlabel label (List.mem_cons_of_mem first hmem) hc

theorem at_not_mem {cs : List Char} (h : ∀ c ∈ cs, isLocalChar c = true) : '@' ∉ cs := by
  intro hat
  have hlocal := h '@' hat
  rw [isLocalChar_at] at hlocal
  cases hlocal

/-- **A text has one local part and one domain**: whoever cuts it at an `@` has found them. -/
theorem isAddress_append_iff (name domain : List Char) :
    IsAddress (name ++ '@' :: domain) ↔ IsLocal name ∧ IsDomain domain := by
  constructor
  · rintro ⟨name', domain', heq, hname, hdomain⟩
    obtain ⟨rfl, -, rfl⟩ := (List.append_cons_inj_of_notMem (at_not_mem hname.isLocalChar_of_mem)
      (at_not_mem hdomain.isLocalChar_of_mem)).1 heq.symm
    exact ⟨hname, hdomain⟩
  · rintro ⟨hname, hdomain⟩
    exact ⟨name, domain, rfl, hname, hdomain⟩

theorem IsAddress.isLocalChar_or_at {cs : List Char} (h : IsAddress cs) :
    ∀ c ∈ cs, isLocalChar c = true ∨ c = '@' := by
  obtain ⟨name, domain, rfl, hname, hdomain⟩ := h
  intro c hc
  rcases List.mem_append.1 hc with hc | hc
  · exact .inl (hname.isLocalChar_of_mem c hc)
  · rcases List.mem_cons.1 hc with rfl | hc
    · exact .inr rfl
    · exact .inl (hdomain.isLocalChar_of_mem c hc)

theorem IsAddress.toNat_lt {cs : List Char} (h : IsAddress cs) : ∀ c ∈ cs, c.toNat < 128 := by
  intro c hc
  rcases h.isLocalChar_or_at c hc with hlocal | rfl
  · exact toNat_lt_of_isLocalChar hlocal
  · decide

theorem IsAddress.count_at {cs : List Char} (h : IsAddress cs) : cs.count '@' = 1 := by
  obtain ⟨name, domain, rfl, hname, hdomain⟩ := h
  rw [List.count_append, List.count_cons_self, List.count_eq_zero.2 (at_not_mem hname.isLocalChar_of_mem),
    List.count_eq_zero.2 (at_not_mem hdomain.isLocalChar_of_mem)]

theorem not_isLabel {cs : List Char}
    (h : cs = [] ∨ cs.head? = some '-' ∨ cs.getLast? = some '-' ∨ 63 < cs.length) : ¬IsLabel cs := by
  have hhyphen : ¬Char.isAlphanum '-' = true := by decide
  rintro ⟨hne, hlength, -, hfirst, hlast⟩
  rcases h with hnil | hhead | hend | hlong
  · exact hne hnil
  · exact hhyphen (hfirst '-' hhead)
  · exact hhyphen (hlast '-' hend)
  · omega

end Email

/-- **The e-mail addresses are exactly the texts of a grammar.**  A text is read as one exactly when it has at most 254
bytes and is a local part, an `@` and a domain: local characters, at least one, and at least two labels with dots
between them, each of 1 to 63 letters, digits and hyphens with no hyphen at either end.  These are the texts that the
pattern matches.  An address is all ASCII and has one `@`; what ends in a line break is none, and neither is what has
behind an `@` a label that is empty, too long, or begins or ends with a hyphen. -/
theorem isEmail_accepts_addresses :
    (∀ s, isEmail s = true ↔ s.utf8ByteSize ≤ 254 ∧ ∃ name domain, s.toList = name ++ '@' :: domain ∧
      Email.IsLocal name ∧ Email.IsDomain domain) ∧
    (∀ s, isEmail s = true ↔ s.utf8ByteSize ≤ 254 ∧ s.toList ∈ Email.pattern) ∧
    (∀ s, isEmail s = true → (∀ c ∈ s.toList, c.toNat < 128) ∧ s.toList.count '@' = 1) ∧
    (∀ s, isEmail (s ++ "\n") = false) ∧
    ∀ s name domain, s.toList = name ++ '@' :: domain → ∀ label ∈ domain.splitOn '.',
      (label = [] ∨ label.head? = some '-' ∨ label.getLast? = some '-' ∨ 63 < label.length) → isEmail s = false := by
  refine ⟨isEmail_iff, fun s => ?_, fun s hs => ?_, fun s => ?_, fun s name domain hs label hlabel hbad => ?_⟩
  · rw [isEmail_iff, Email.mem_pattern_iff]
  · have haddress := ((isEmail_iff s).1 hs).2
    exact ⟨haddress.toNat_lt, haddress.count_at⟩
  · rw [← Bool.not_eq_true, isEmail_iff]
    rintro ⟨-, haddress⟩
    have hbreak := haddress.isLocalChar_or_at '\n' (by simp)
    revert hbreak
    decide
  · rw [← Bool.not_eq_true, isEmail_iff, hs, Email.isAddress_append_iff]
    rintro ⟨-, -, hdomain⟩
    exact Email.not_isLabel hbad (hdomain.labels label hlabel)

/-- The longest label there is, and one character more. -/
theorem isEmail_accepts_addresses_longest_label :
    let domain (n : Nat) : List Char := List.replicate n 'x' ++ ".org".toList
    let text (n : Nat) : String := String.ofList ("first.last+tag".toList ++ '@' :: domain n)
    isEmail (text 63) = true ∧ (text 63).toList.count '@' = 1 ∧ isEmail (text 63 ++ "\n") = false ∧
      List.replicate 64 'x' ∈ (domain 64).splitOn '.' ∧ isEmail (text 64) = false := by
  intro domain text
  obtain ⟨hgrammar, -, hascii, hbreak, hlabels⟩ := isEmail_accepts_addresses
  have hlist : ∀ n, (text n).toList = "first.last+tag".toList ++ '@' :: domain n := fun n => String.toList_ofList
  have hdomain : Email.IsDomain (domain 63) := (Email.isDomain_iff _).1 (by decide)
  have hlongest : isEmail (text 63) = true :=
    (hgrammar _).2 ⟨by decide, _, _, hlist 63, (Email.isLocal_iff _).1 (by decide), hdomain⟩
  have hmem : List.replicate 64 'x' ∈ (domain 64).splitOn '.' := by decide
  refine ⟨hlongest, (hascii _ hlongest).2, hbreak _, hmem, hlabels _ _ _ (hlist 64) _ hmem ?_⟩
  simp

end Text
end FieldRules
