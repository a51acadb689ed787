import FieldRules.Text.Quote
/-!
# Quotes — what a quoted text can be relied on for

Whatever follows a quoted text, **the text can be read back, and so can what follows** (`quoted_append_inj`): no escaped
character begins as another one does, or as the quote that ends the text.  And **every character of a quoted text can
be seen** (`unseen_eq_false_of_mem_quoted`), so that the text does not break the line it is written on.
-/
namespace FieldRules
namespace Text

/-! ## Lists up to a mark -/

theorem takeWhile_ne_append_cons {c : Char} {xs : List Char} (h : c ∉ xs) (ys : List Char) :
    (xs ++ c :: ys).takeWhile (· != c) = xs := by
  have hxs : ∀ x ∈ xs, (x != c) = true := fun x hx => bne_iff_ne.2 fun he => h (he ▸ hx)
  rw [List.takeWhile_append_of_pos hxs, List.takeWhile_cons_of_neg (by simp), List.append_nil]

/-- **Texts that agree agree on what stands before the first `c`**, and on what stands behind it. -/
theorem append_cons_inj {c : Char} {xs xs' ys ys' : List Char} (h : c ∉ xs) (h' : c ∉ xs')
    (heq : xs ++ c :: ys = xs' ++ c :: ys') : xs = xs' ∧ ys = ys' := by
  have hxs : xs = xs' := by rw [← takeWhile_ne_append_cons h ys, heq, takeWhile_ne_append_cons h']
  rw [hxs, List.append_cancel_left_eq, List.cons.injEq] at heq
  exact ⟨hxs, heq.2⟩

/-! ## Numbers in digits -/

section Digits

variable {b : Nat} (hb : 1 < b)

include hb

/-- The last digit, and those before it if there are any. -/
theorem toDigits_eq_append (n : Nat) :
    Nat.toDigits b n = (if n < b then [] else Nat.toDigits b (n / b)) ++ [Nat.digitChar (n % b)] := by
  rw [Nat.toDigits_eq_if hb]
  split
  · rename_i hn
    rw [Nat.mod_eq_of_lt hn, List.nil_append]
  · rfl

theorem exists_of_mem_toDigits (n : Nat) : ∀ c ∈ Nat.toDigits b n, ∃ d < b, c = Nat.digitChar d := by
  induction n using Nat.strongRecOn with
  | ind n ih =>
    intro c hc
    rw [toDigits_eq_append hb, List.mem_append, List.mem_singleton] at hc
    rcases hc with hc | rfl
    · split at hc
      · cases hc
      · exact ih (n / b) (Nat.div_lt_self (by omega) hb) c hc
    · exact ⟨n % b, Nat.mod_lt n (by omega), rfl⟩

omit hb in
theorem digitChar_inj : ∀ d e : Fin 16, Nat.digitChar d = Nat.digitChar e → d = e := by
  decide

/-- **A number can be read from its digits**, to the base sixteen or less. -/
theorem toDigits_inj (hb' : b ≤ 16) (m : Nat) : ∀ n, Nat.toDigits b m = Nat.toDigits b n → m = n := by
  induction m using Nat.strongRecOn with
  | ind m ih =>
    intro n h
    rw [toDigits_eq_append hb m, toDigits_eq_append hb n] at h
    obtain ⟨hfront, hlast⟩ := List.append_inj' h rfl
    have hmod : m % b = n % b := by
      have hlt : ∀ k, k % b < 16 := fun k => Nat.lt_of_lt_of_le (Nat.mod_lt k (by omega)) hb'
      exact Fin.mk.inj (digitChar_inj ⟨m % b, hlt m⟩ ⟨n % b, hlt n⟩ (List.singleton_inj.1 hlast))
    have hdiv : m / b = n / b := by
      by_cases hm : m < b <;> by_cases hn : n < b <;> simp only [hm, hn, if_true, if_false] at hfront
      · rw [Nat.div_eq_of_lt hm, Nat.div_eq_of_lt hn]
      · exact absurd hfront.symm Nat.toDigits_ne_nil
      · exact absurd hfront Nat.toDigits_ne_nil
      · exact ih (m / b) (Nat.div_lt_self (by omega) hb) (n / b) hfront
    rw [← Nat.div_add_mod m b, ← Nat.div_add_mod n b, hdiv, hmod]

end Digits

/-! ## Escaped characters -/

/-- A character is written by a letter, by its code point, or as it is. -/
theorem escape_cases (c : Char) :
    (∃ letter, (c, letter) ∈ escapeLetters ∧ escape c = ['\\', letter]) ∨
    escape c = '\\' :: 'u' :: '\x7b' :: (Nat.toDigits 16 c.toNat ++ ['\x7d']) ∨
    (escape c = [c] ∧ c ≠ '\\' ∧ c ≠ '"' ∧ unseen.contains c = false) := by
  cases hletter : escapeLetters.lookup c with
  | some letter =>
    obtain ⟨before, after, hsplit, -⟩ := List.lookup_eq_some_iff.1 hletter
    have hmem : (c, letter) ∈ escapeLetters := by
      rw [hsplit]
      exact List.mem_append_right before List.mem_cons_self
    exact .inl ⟨letter, hmem, by rw [escape, hletter]⟩
  | none =>
    right
    cases hunseen : unseen.contains c with
    | true => exact .inl (by rw [escape, hletter, hunseen, if_pos rfl])
    | false =>
      refine .inr ⟨by rw [escape, hletter, hunseen]; rfl, ?_, ?_, rfl⟩
      · rintro rfl
        cases hletter
      · rintro rfl
        cases hletter

example : escape '\t' = ['\\', 't'] ∧ escape '\x1f' = ['\\', 'u', '\x7b', '1', 'f', '\x7d'] ∧ escape 'a' = ['a'] := by
  decide

/-- No letter stands for two characters, and none of them begins a code point. -/
theorem escapeLetters_apart : ∀ e ∈ escapeLetters, e.2 ≠ 'u' ∧ ∀ f ∈ escapeLetters, e.2 = f.2 → e.1 = f.1 := by
  decide

theorem brace_not_mem_toDigits (n : Nat) : '\x7d' ∉ Nat.toDigits 16 n := by
  intro h
  obtain ⟨d, -, hd⟩ := exists_of_mem_toDigits (by decide) n _ h
  exact Nat.digitChar_ne '\x7d' rfl hd.symm

/-- **An escaped character can be told from any other, and where it ends**, whatever follows it. -/
theorem escape_append_inj {c d : Char} {xs ys : List Char} (h : escape c ++ xs = escape d ++ ys) :
    c = d ∧ xs = ys := by
  rcases escape_cases c with ⟨l, hl, hc⟩ | hc | ⟨hc, hslash, -, -⟩ <;>
    rcases escape_cases d with ⟨m, hm, hd⟩ | hd | ⟨hd, hslash', -, -⟩ <;>
    rw [hc, hd] at h
  -- two letters
  · cases h
    exact ⟨(escapeLetters_apart _ hl).2 _ hm rfl, rfl⟩
  · cases h
    exact absurd rfl (escapeLetters_apart _ hl).1
  · cases h
    exact absurd rfl hslash'
  · cases h
    exact absurd rfl (escapeLetters_apart _ hm).1
  -- two code points, each up to the first brace that closes it
  · simp only [List.cons_append, List.append_assoc, List.nil_append, List.cons.injEq, true_and] at h
    obtain ⟨hdigits, hrest⟩ := append_cons_inj (brace_not_mem_toDigits _) (brace_not_mem_toDigits _) h
    exact ⟨Char.toNat_inj.1 (toDigits_inj (by decide) (Nat.le_refl 16) _ _ hdigits), hrest⟩
  · cases h
    exact absurd rfl hslash'
  · cases h
    exact absurd rfl hslash
  · cases h
    exact absurd rfl hslash
  -- two characters as they are
  · cases h
    exact ⟨rfl, rfl⟩

theorem escape_append_ne_quote (c : Char) (xs ys : List Char) : escape c ++ xs ≠ '"' :: ys := by
  intro h
  rcases escape_cases c with ⟨l, -, hc⟩ | hc | ⟨hc, -, hquote, -⟩ <;> rw [hc] at h <;> cases h
  exact hquote rfl

theorem unseen_eq_false_of_mem_escape (c : Char) : ∀ d ∈ escape c, unseen.contains d = false := by
  have hletters : ∀ e ∈ escapeLetters, unseen.contains e.2 = false := by decide
  have hdigits : ∀ d : Fin 16, unseen.contains (Nat.digitChar d) = false := by decide
  intro d hd
  rcases escape_cases c with ⟨l, hl, hc⟩ | hc | ⟨hc, -, -, hseen⟩ <;>
    rw [hc] at hd <;>
    simp only [List.mem_cons, List.mem_append, List.not_mem_nil, or_false] at hd
  · rcases hd with rfl | rfl
    · rfl
    · exact hletters _ hl
  · rcases hd with rfl | rfl | rfl | hd | rfl
    · rfl
    · rfl
    · rfl
    · obtain ⟨n, hn, rfl⟩ := exists_of_mem_toDigits (by decide) _ d hd
      exact hdigits ⟨n, hn⟩
    · rfl
  · rw [hd]
    exact hseen

/-! ## Quoted texts -/

theorem flatMap_escape_append_inj : ∀ {s t xs ys : List Char},
    s.flatMap escape ++ '"' :: xs = t.flatMap escape ++ '"' :: ys → s = t ∧ xs = ys
  | [], [], xs, ys, h => by
    cases h
    exact ⟨rfl, rfl⟩
  | [], d :: t, xs, ys, h => by
    rw [List.flatMap_cons, List.append_assoc] at h
    exact absurd h.symm (escape_append_ne_quote d _ _)
  | c :: s, [], xs, ys, h => by
    rw [List.flatMap_cons, List.append_assoc] at h
    exact absurd h (escape_append_ne_quote c _ _)
  | c :: s, d :: t, xs, ys, h => by
    rw [List.flatMap_cons, List.flatMap_cons, List.append_assoc, List.append_assoc] at h
    obtain ⟨rfl, hrest⟩ := escape_append_inj h
    obtain ⟨rfl, rfl⟩ := flatMap_escape_append_inj hrest
    exact ⟨rfl, rfl⟩

theorem toList_quoted (s : String) : (quoted s).toList = '"' :: (s.toList.flatMap escape ++ ['"']) :=
  String.toList_ofList

/-- **A quoted text can be read back, and so can what follows it.** -/
theorem quoted_append_inj {s t xs ys : String} : quoted s ++ xs = quoted t ++ ys ↔ s = t ∧ xs = ys := by
  constructor
  · intro h
    have hlists := String.toList_inj.2 h
    rw [String.toList_append, String.toList_append, toList_quoted, toList_quoted, List.cons_append, List.cons_append,
      List.append_assoc, List.append_assoc, List.cons.injEq] at hlists
    obtain ⟨hs, hxs⟩ := flatMap_escape_append_inj hlists.2
    exact ⟨String.toList_inj.1 hs, String.toList_inj.1 hxs⟩
  · rintro ⟨rfl, rfl⟩
    rfl

/-- **Every character of a quoted text can be seen.** -/
theorem unseen_eq_false_of_mem_quoted {s : String} {c : Char} (h : c ∈ (quoted s).toList) :
    unseen.contains c = false := by
  rw [toList_quoted, List.mem_cons, List.mem_append, List.mem_flatMap, List.mem_singleton] at h
  rcases h with rfl | ⟨d, -, hc⟩ | rfl
  · rfl
  · exact unseen_eq_false_of_mem_escape d c hc
  · rfl

end Text
end FieldRules
