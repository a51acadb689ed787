/-!
# Table — entries in the order their names were first written

A table holds one entry a name.  Writing a name that is already there replaces the value where it stands, so the order
of a table is the order in which its names were first written.  A rule keeps its checks and its wordings in tables, a
report its fields.

Everything about a table goes through what a lookup sees and where the names stand.  `get?_insert` and `keys_insert`
say so for one write; `get?_ofList` and `keys_ofList` say it for a list of writes: **names by first occurrence, values
by last**.
-/
namespace FieldRules

/-- **Entries with distinct names**, in order. -/
structure Table (α : Type) where
  entries : List (String × α)
  nodup : (entries.map Prod.fst).Nodup

namespace Table

variable {α β : Type}

/-! ## Looking -/

def keys (t : Table α) : List String := t.entries.map Prod.fst

def values (t : Table α) : List α := t.entries.map Prod.snd

def size (t : Table α) : Nat := t.entries.length

def isEmpty (t : Table α) : Bool := t.entries.isEmpty

def get? (t : Table α) (k : String) : Option α := t.entries.lookup k

def contains (t : Table α) (k : String) : Bool := (t.get? k).isSome

/-! ## Writing -/

/-- Replaces the value of the first entry named `k`, or adds one at the end. -/
def write (k : String) (a : α) : List (String × α) → List (String × α)
  | [] => [(k, a)]
  | e :: rest => if e.1 = k then (k, a) :: rest else e :: write k a rest

theorem map_fst_write (k : String) (a : α) :
    ∀ l : List (String × α),
      (write k a l).map Prod.fst = if k ∈ l.map Prod.fst then l.map Prod.fst else l.map Prod.fst ++ [k]
  | [] => by simp [write]
  | e :: rest => by
    by_cases h : e.1 = k
    · simp [write, h]
    · simp only [write, if_neg h, List.map_cons, map_fst_write k a rest, List.mem_cons, Ne.symm h, false_or]
      split <;> simp

theorem write_of_not_mem (k : String) (a : α) :
    ∀ l : List (String × α), k ∉ l.map Prod.fst → write k a l = l ++ [(k, a)]
  | [], _ => rfl
  | e :: rest, h => by
    rw [List.map_cons, List.mem_cons, not_or] at h
    rw [write, if_neg (Ne.symm h.1), write_of_not_mem k a rest h.2, List.cons_append]

theorem nodup_write (k : String) (a : α) (l : List (String × α)) (h : (l.map Prod.fst).Nodup) :
    ((write k a l).map Prod.fst).Nodup := by
  rw [map_fst_write]
  split
  · exact h
  · rename_i hk
    exact List.nodup_append.2 ⟨h, by simp, fun x hx y hy => by
      rw [List.mem_singleton.1 hy]; exact fun he => hk (he ▸ hx)⟩

theorem lookup_cons_eq (j i : String) (b : α) (l : List (String × α)) :
    ((i, b) :: l).lookup j = if j = i then some b else l.lookup j := by
  rw [List.lookup_cons]
  by_cases h : j = i <;> simp [h, beq_false_of_ne]

theorem lookup_write (k : String) (a : α) (j : String) :
    ∀ l : List (String × α), (write k a l).lookup j = if j = k then some a else l.lookup j
  | [] => by simp [write, lookup_cons_eq]
  | (i, b) :: rest => by
    by_cases hi : i = k
    · subst hi
      by_cases h : j = i <;> simp [write, lookup_cons_eq, h]
    · by_cases h : j = i
      · subst h; simp [write, hi]
      · simp [write, hi, h, lookup_cons_eq, lookup_write k a j rest]

protected def empty : Table α := ⟨[], by simp⟩

instance : EmptyCollection (Table α) := ⟨Table.empty⟩

instance : Inhabited (Table α) := ⟨∅⟩

def insert (t : Table α) (k : String) (a : α) : Table α :=
  ⟨write k a t.entries, nodup_write k a t.entries t.nodup⟩

/-- All the writes of a list, from the left. -/
def ofList (l : List (String × α)) : Table α :=
  l.foldl (fun t e => t.insert e.1 e.2) ∅

def map (f : α → β) (t : Table α) : Table β :=
  ⟨t.entries.map (fun e => (e.1, f e.2)), by simpa [List.map_map, Function.comp_def] using t.nodup⟩

def filterMap (f : α → Option β) (t : Table α) : Table β :=
  ⟨t.entries.filterMap (fun e => (f e.2).map (fun b => (e.1, b))), by
    have hsub : ((t.entries.filterMap (fun e => (f e.2).map (fun b => (e.1, b)))).map Prod.fst).Sublist
        (t.entries.map Prod.fst) := by
      generalize t.entries = l
      induction l with
      | nil => simp
      | cons e l ih =>
        cases h : f e.2 with
        | none => simpa [List.filterMap_cons, h] using ih.cons e.1
        | some b => simpa [List.filterMap_cons, h] using ih
    exact t.nodup.sublist hsub⟩

/-- **The same entries, in any order**, values compared by `eq`. -/
def same (eq : α → α → Bool) (s t : Table α) : Bool :=
  s.size == t.size && s.entries.all fun e => (t.get? e.1).any (eq e.2)

/-! ## What a write does -/

theorem ext_entries {s t : Table α} (h : s.entries = t.entries) : s = t := by
  cases s; cases t; cases h; rfl

instance [DecidableEq α] : DecidableEq (Table α) := fun s t =>
  decidable_of_iff (s.entries = t.entries) ⟨ext_entries, fun h => by rw [h]⟩

@[simp] theorem keys_empty : (∅ : Table α).keys = [] := rfl

@[simp] theorem get?_empty (k : String) : (∅ : Table α).get? k = none := rfl

theorem keys_insert (t : Table α) (k : String) (a : α) :
    (t.insert k a).keys = if k ∈ t.keys then t.keys else t.keys ++ [k] :=
  map_fst_write k a t.entries

@[simp] theorem get?_insert (t : Table α) (k : String) (a : α) (j : String) :
    (t.insert k a).get? j = if j = k then some a else t.get? j :=
  lookup_write k a j t.entries

@[simp] theorem isEmpty_insert (t : Table α) (k : String) (a : α) : (t.insert k a).isEmpty = false := by
  have hk : k ∈ (t.insert k a).keys := by
    rw [keys_insert]
    split <;> simp_all
  cases h : (t.insert k a).entries with
  | nil => rw [keys, h] at hk; cases hk
  | cons e l => rw [isEmpty, h]; rfl

theorem keys_map (f : α → β) (t : Table α) : (t.map f).keys = t.keys := by
  simp [keys, map, List.map_map, Function.comp_def]

theorem lookup_eq_none_iff_not_mem (k : String) :
    ∀ l : List (String × α), l.lookup k = none ↔ k ∉ l.map Prod.fst
  | [] => by simp
  | (i, a) :: l => by
    rw [lookup_cons_eq, List.map_cons, List.mem_cons, not_or, ← lookup_eq_none_iff_not_mem k l]
    by_cases h : k = i <;> simp [h]

/-- **What is named is what a lookup finds.** -/
theorem mem_keys_iff (t : Table α) (k : String) : k ∈ t.keys ↔ (t.get? k).isSome := by
  rw [← Option.not_isNone, Bool.not_eq_true', ← Bool.not_eq_true, Option.isNone_iff_eq_none, get?,
    lookup_eq_none_iff_not_mem, Classical.not_not, keys]

/-- **Empty is where no lookup finds anything.** -/
theorem isEmpty_iff (t : Table α) : t.isEmpty = true ↔ ∀ k, t.get? k = none := by
  have hkeys : (∀ k, t.get? k = none) ↔ ∀ k, k ∉ t.keys := by
    simp only [mem_keys_iff, Option.not_isSome_iff_eq_none]
  rw [hkeys, isEmpty, List.isEmpty_iff, ← List.eq_nil_iff_forall_not_mem, keys, List.map_eq_nil_iff]

theorem lookup_eq_some_iff_mem (k : String) (a : α) :
    ∀ l : List (String × α), (l.map Prod.fst).Nodup → (l.lookup k = some a ↔ (k, a) ∈ l)
  | [], _ => by simp
  | (i, b) :: l, hnd => by
    rw [List.map_cons, List.nodup_cons] at hnd
    rw [lookup_cons_eq, List.mem_cons, Prod.mk.injEq]
    by_cases h : k = i
    · subst h
      have hk : (k, a) ∉ l := fun hm => hnd.1 (List.mem_map.2 ⟨(k, a), hm, rfl⟩)
      simp [hk, eq_comm]
    · rw [if_neg h, lookup_eq_some_iff_mem k a l hnd.2]
      simp [h]

/-- **A lookup finds the entries and nothing else.** -/
theorem get?_eq_some_iff (t : Table α) (k : String) (a : α) : t.get? k = some a ↔ (k, a) ∈ t.entries :=
  lookup_eq_some_iff_mem k a t.entries t.nodup

theorem entries_eq_map_keys (t : Table α) (f : String → α) (h : ∀ k ∈ t.keys, t.get? k = some (f k)) :
    t.entries = t.keys.map fun k => (k, f k) := by
  rw [keys, List.map_map]
  conv => lhs; rw [← List.map_id t.entries]
  refine List.map_congr_left fun e he => ?_
  have hf : t.get? e.1 = some (f e.1) := h e.1 (List.mem_map_of_mem he)
  have he' : t.get? e.1 = some e.2 := (t.get?_eq_some_iff e.1 e.2).2 he
  rw [he', Option.some.injEq] at hf
  exact Prod.ext rfl hf

theorem lookup_map (f : α → β) (k : String) :
    ∀ l : List (String × α), (l.map fun e => (e.1, f e.2)).lookup k = (l.lookup k).map f
  | [] => rfl
  | (i, a) :: l => by
    rw [List.map_cons, lookup_cons_eq, lookup_cons_eq, lookup_map f k l]
    split <;> rfl

@[simp] theorem get?_map (f : α → β) (t : Table α) (k : String) : (t.map f).get? k = (t.get? k).map f :=
  lookup_map f k t.entries

theorem lookup_filterMap (f : α → Option β) (k : String) :
    ∀ l : List (String × α), (l.map Prod.fst).Nodup →
      (l.filterMap fun e => (f e.2).map fun b => (e.1, b)).lookup k = (l.lookup k).bind f
  | [], _ => rfl
  | (i, a) :: l, hnd => by
    rw [List.map_cons, List.nodup_cons] at hnd
    have ih := lookup_filterMap f k l hnd.2
    rw [lookup_cons_eq]
    by_cases h : k = i
    · subst h
      rw [(lookup_eq_none_iff_not_mem k l).2 hnd.1] at ih
      cases hf : f a with
      | none => rw [List.filterMap_cons_none (by simp [hf]), ih]; simp [hf]
      | some b => rw [List.filterMap_cons_some (b := (k, b)) (by simp [hf]), lookup_cons_eq]; simp [hf]
    · cases hf : f a with
      | none => rw [List.filterMap_cons_none (by simp [hf]), ih, if_neg h]
      | some b => rw [List.filterMap_cons_some (b := (i, b)) (by simp [hf]), lookup_cons_eq, if_neg h, if_neg h, ih]

/-- A name whose value `f` has nothing for is gone; it stands nowhere else. -/
@[simp] theorem get?_filterMap (f : α → Option β) (t : Table α) (k : String) :
    (t.filterMap f).get? k = (t.get? k).bind f :=
  lookup_filterMap f k t.entries t.nodup

/-! ## What a list of writes does -/

theorem get?_foldl_insert (j : String) :
    ∀ (l : List (String × α)) (t : Table α),
      (l.foldl (fun t e => t.insert e.1 e.2) t).get? j = (l.reverse.lookup j).or (t.get? j)
  | [], t => by simp
  | (i, b) :: l, t => by
    rw [List.foldl_cons, get?_foldl_insert j l, get?_insert, List.reverse_cons, List.lookup_append, lookup_cons_eq]
    cases l.reverse.lookup j <;> by_cases h : j = i <;> simp [h]

/-- **The last write of a name is the one that counts.** -/
theorem get?_ofList (l : List (String × α)) (j : String) : (ofList l).get? j = l.reverse.lookup j := by
  simp [ofList, get?_foldl_insert]

theorem keys_foldl_insert :
    ∀ (l : List (String × α)) (t : Table α),
      (l.foldl (fun t e => t.insert e.1 e.2) t).keys
        = t.keys ++ ((l.map Prod.fst).filter (fun k => !t.keys.contains k)).eraseDups
  | [], t => by simp
  | e :: l, t => by
    rw [List.foldl_cons, keys_foldl_insert l, keys_insert, List.map_cons, List.filter_cons]
    by_cases h : e.1 ∈ t.keys
    · simp [h]
    · simp only [h, if_false, List.append_assoc, List.contains_eq_mem, decide_false, Bool.not_false, if_true,
        List.eraseDups_cons, List.filter_filter, List.cons_append, List.nil_append]
      congr 4
      funext k
      by_cases hk : k = e.1 <;> simp [hk, h]

/-- **A name stands where it was first written.** -/
theorem keys_ofList (l : List (String × α)) : (ofList l).keys = (l.map Prod.fst).eraseDups := by
  rw [ofList, keys_foldl_insert, keys_empty, List.nil_append, List.filter_eq_self.2 (by simp)]

theorem lookup_map_self (f : String → α) (j : String) :
    ∀ ks : List String, (ks.map fun k => (k, f k)).lookup j = if j ∈ ks then some (f j) else none
  | [] => rfl
  | k :: ks => by
    rw [List.map_cons, lookup_cons_eq, lookup_map_self f j ks]
    by_cases h : j = k <;> simp [h]

theorem get?_ofList_map (f : String → α) (ks : List String) (j : String) :
    (ofList (ks.map fun k => (k, f k))).get? j = if j ∈ ks then some (f j) else none := by
  rw [get?_ofList, ← List.map_reverse, lookup_map_self]
  simp only [List.mem_reverse]

theorem keys_ofList_map (f : String → α) (ks : List String) :
    (ofList (ks.map fun k => (k, f k))).keys = ks.eraseDups := by
  rw [keys_ofList, List.map_map]
  exact congrArg List.eraseDups (List.map_id' ks)

/-- **Writing one name twice with one value is writing it once.** -/
theorem entries_ofList_map (f : String → α) (ks : List String) :
    (ofList (ks.map fun k => (k, f k))).entries = ks.eraseDups.map fun k => (k, f k) := by
  rw [entries_eq_map_keys _ f, keys_ofList_map]
  intro k hk
  rw [keys_ofList_map, List.mem_eraseDups] at hk
  rw [get?_ofList_map, if_pos hk]

theorem entries_foldl_insert :
    ∀ (l : List (String × α)) (t : Table α), ((t.entries ++ l).map Prod.fst).Nodup →
      (l.foldl (fun t e => t.insert e.1 e.2) t).entries = t.entries ++ l
  | [], t, _ => by simp
  | e :: l, t, h => by
    have hk : e.1 ∉ t.entries.map Prod.fst := by
      rw [List.map_append, List.map_cons, List.nodup_append] at h
      exact fun hm => h.2.2 e.1 hm e.1 List.mem_cons_self rfl
    have hw : (t.insert e.1 e.2).entries = t.entries ++ [e] := write_of_not_mem e.1 e.2 t.entries hk
    rw [List.foldl_cons, entries_foldl_insert l _ (by rw [hw]; simpa using h), hw, List.append_assoc]
    rfl

/-- **A table is what its own entries write.** -/
@[simp] theorem ofList_entries (t : Table α) : ofList t.entries = t :=
  ext_entries (by
    have h := entries_foldl_insert t.entries (∅ : Table α) t.nodup
    exact h)

end Table
end FieldRules
