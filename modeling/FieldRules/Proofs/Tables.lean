import FieldRules.Report
import Mathlib.Data.List.Basic
import Mathlib.Data.List.Perm.Subperm
/-!
# Tables — what tells two tables apart

A table is its names, in order, and what they look up (`entries_eq_filterMap_keys`); with the order of the names left
aside it is what they look up alone, and that is how reports are compared (`same_iff`).

Writing a list of entries into a table condenses the list: **each name once, in the place where it stands first, with
the value that it has last** (`entries_ofList`).
-/
namespace FieldRules

namespace Table

variable {α β : Type}

/-! ## Equal tables -/

theorem entries_eq_filterMap_keys (t : Table α) :
    t.entries = t.keys.filterMap fun k => (t.get? k).map fun a => (k, a) := by
  have hself : ∀ e ∈ t.entries, (t.get? e.1).map (fun a => (e.1, a)) = some e := by
    intro e he
    rw [(t.get?_eq_some_iff e.1 e.2).2 he]
    rfl
  rw [keys, List.filterMap_map]
  exact (List.filterMap_some.symm.trans (List.filterMap_congr fun e he => (hself e he).symm))

/-- **Tables with the same names in one order, and the same values under them, are equal.** -/
theorem ext_get? {s t : Table α} (hkeys : s.keys = t.keys) (hget : ∀ k, s.get? k = t.get? k) : s = t := by
  refine ext_entries ?_
  rw [entries_eq_filterMap_keys s, entries_eq_filterMap_keys t, hkeys]
  simp only [hget]

theorem map_congr_values {t : Table α} {f g : α → β} (h : ∀ a ∈ t.values, f a = g a) : t.map f = t.map g :=
  ext_entries (List.map_congr_left fun e he => by rw [h e.2 (List.mem_map_of_mem he)])

/-- **Writing everything once more changes nothing**, not even the order. -/
theorem ofList_append_self (l : List (String × α)) : ofList (l ++ l) = ofList l := by
  refine ext_get? ?_ fun k => ?_
  · have hagain : (l.map Prod.fst).removeAll (l.map Prod.fst) = [] := by
      simp [List.removeAll]
    rw [keys_ofList, keys_ofList, List.map_append, List.eraseDups_append, hagain, List.eraseDups_nil, List.append_nil]
  · rw [get?_ofList, get?_ofList, List.reverse_append, List.lookup_append, Option.or_self]

/-! ## One more entry -/

/-- **To write what is there already changes nothing.** -/
theorem insert_eq_self {t : Table α} {k : String} {a : α} (h : t.get? k = some a) : t.insert k a = t := by
  have hk : k ∈ t.keys := by rw [mem_keys_iff, h]; rfl
  refine ext_get? (by rw [keys_insert, if_pos hk]) fun j => ?_
  rw [get?_insert]
  split
  · rename_i hj
    rw [hj, h]
  · rfl

theorem entries_insert_of_not_mem {t : Table α} {k : String} (h : k ∉ t.keys) (a : α) :
    (t.insert k a).entries = t.entries ++ [(k, a)] :=
  write_of_not_mem k a t.entries h

theorem ofList_append_singleton (l : List (String × α)) (k : String) (a : α) :
    ofList (l ++ [(k, a)]) = (ofList l).insert k a := by
  rw [ofList, ofList, List.foldl_append]
  rfl

theorem isEmpty_ofList (l : List (String × α)) : (ofList l).isEmpty = l.isEmpty := by
  have hkeys : (ofList l).isEmpty = (ofList l).keys.isEmpty := by rw [keys, List.isEmpty_map, isEmpty]
  rw [hkeys, keys_ofList]
  cases l with
  | nil => rfl
  | cons e l => rw [List.map_cons, List.eraseDups_cons]; rfl

/-! ## Condensed lists -/

/-- Each name once, in the place where it stands first, with the value that it has last. -/
def condensed (l : List (String × α)) : List (String × α) :=
  (l.map Prod.fst).eraseDups.filterMap fun k => (l.reverse.lookup k).map fun a => (k, a)

/-- **A table of writes holds the writes, condensed.** -/
theorem entries_ofList (l : List (String × α)) : (ofList l).entries = condensed l := by
  rw [entries_eq_filterMap_keys, keys_ofList]
  simp only [get?_ofList]
  rfl

/-- The last entry of the name holds `a`. -/
def IsLast (l : List (String × α)) (k : String) (a : α) : Prop :=
  ∃ before after, l = before ++ (k, a) :: after ∧ k ∉ after.map Prod.fst

theorem isLast_iff_lookup (l : List (String × α)) (k : String) (a : α) :
    IsLast l k a ↔ l.reverse.lookup k = some a := by
  rw [List.lookup_eq_some_iff]
  constructor
  · rintro ⟨before, after, rfl, hk⟩
    refine ⟨after.reverse, before.reverse, by simp, fun p hp => ?_⟩
    have hne : k ≠ p.1 := fun he => hk (he ▸ List.mem_map_of_mem (List.mem_reverse.1 hp))
    simpa using hne
  · rintro ⟨after, before, hl, hk⟩
    have hsplit : l = before.reverse ++ (k, a) :: after.reverse := by
      rw [← List.reverse_reverse l, hl]
      simp
    refine ⟨before.reverse, after.reverse, hsplit, fun hmem => ?_⟩
    obtain ⟨p, hp, hpk⟩ := List.mem_map.1 hmem
    simpa [hpk] using hk p (List.mem_reverse.1 hp)

theorem condensed_map (f : α → β) (l : List (String × α)) :
    condensed (l.map fun e => (e.1, f e.2)) = (condensed l).map fun e => (e.1, f e.2) := by
  unfold condensed
  rw [List.map_map, List.map_filterMap, ← List.map_reverse]
  simp only [lookup_map, Option.map_map]
  rfl

/-- Values can be changed before they are written or after. -/
theorem ofList_map (f : α → β) (l : List (String × α)) :
    ofList (l.map fun e => (e.1, f e.2)) = (ofList l).map f := by
  have hentries : ((ofList l).map f).entries = (ofList l).entries.map fun e => (e.1, f e.2) := rfl
  refine ext_entries ?_
  rw [hentries, entries_ofList, entries_ofList, condensed_map]

theorem mem_of_mem_values_ofList {l : List (String × α)} {a : α} (h : a ∈ (ofList l).values) : a ∈ l.map Prod.snd := by
  obtain ⟨e, he, rfl⟩ := List.mem_map.1 h
  have hlast := ((ofList l).get?_eq_some_iff e.1 e.2).2 he
  rw [get?_ofList, ← isLast_iff_lookup] at hlast
  obtain ⟨before, after, rfl, -⟩ := hlast
  simp

/-! ## The same entries in any order -/

theorem isSome_eq_of_rel {r : α → β → Prop} {a : Option α} {b : Option β} (h : Option.Rel r a b) :
    a.isSome = b.isSome := by
  cases h <;> rfl

/-- **Two tables are the same when every name looks up equal values in both, or nothing in either.** -/
theorem same_iff (eq : α → α → Bool) (s t : Table α) :
    same eq s t = true ↔ ∀ k, Option.Rel (fun a b => eq a b = true) (s.get? k) (t.get? k) := by
  have hlength : ∀ u : Table α, u.size = u.keys.length := fun u => (List.length_map _).symm
  simp only [same, Bool.and_eq_true, beq_iff_eq, List.all_eq_true, Option.any_eq_true, hlength]
  constructor
  · rintro ⟨hsize, hall⟩ k
    have hsub : s.keys ⊆ t.keys := by
      intro j hj
      obtain ⟨e, he, rfl⟩ := List.mem_map.1 hj
      obtain ⟨b, hb, -⟩ := hall e he
      rw [mem_keys_iff, hb]
      rfl
    -- as many names on both sides, so that `t` has no name besides those of `s`
    have hperm : s.keys.Perm t.keys :=
      (List.subperm_of_subset s.nodup hsub).perm_of_length_le (Nat.le_of_eq hsize.symm)
    cases hs : s.get? k with
    | some a =>
      obtain ⟨b, hb, hab⟩ := hall (k, a) ((s.get?_eq_some_iff k a).1 hs)
      rw [hb]
      exact .some hab
    | none =>
      have hk : k ∉ t.keys := by
        rw [← hperm.mem_iff, mem_keys_iff, hs]
        simp
      rw [mem_keys_iff, Option.not_isSome_iff_eq_none] at hk
      rw [hk]
      exact .none
  · intro hrel
    have hmem : ∀ k, k ∈ s.keys ↔ k ∈ t.keys := by
      intro k
      rw [mem_keys_iff, mem_keys_iff, isSome_eq_of_rel (hrel k)]
    refine ⟨((List.perm_ext_iff_of_nodup s.nodup t.nodup).2 hmem).length_eq, fun e he => ?_⟩
    have he' := hrel e.1
    rw [(s.get?_eq_some_iff e.1 e.2).2 he] at he'
    cases hb : t.get? e.1 with
    | none => rw [hb] at he'; cases he'
    | some b => rw [hb] at he'; cases he' with | some hab => exact ⟨b, rfl, hab⟩

theorem same_of_get?_eq {eq : α → α → Bool} (hrefl : ∀ a, eq a a = true) {s t : Table α}
    (hget : ∀ k, s.get? k = t.get? k) : same eq s t = true := by
  rw [same_iff]
  intro k
  rw [hget k]
  cases t.get? k with
  | none => exact .none
  | some a => exact .some (hrefl a)

end Table

theorem Failure.same_self (e : Failure) : e.same e = true := by
  cases e with
  | bare message => exact beq_self_eq_true message
  | byCheck messages => exact Table.same_of_get?_eq (fun m => beq_self_eq_true m) fun _ => rfl

/-- **Reports with the same entries are equal as reports**, in whatever order their fields stand. -/
theorem Report.same_of_get?_eq {s t : Report} (hget : ∀ field, s.get? field = t.get? field) :
    Report.same s t = true :=
  Table.same_of_get?_eq Failure.same_self hget

end FieldRules
