import FieldRules.Value
/-!
# Canonical — one written form for each value

Two objects with the same names and the same values under them say the same, however their members are ordered or
repeated.  The canonical form of a value writes every object in it with its names in increasing order, each once, under
the last value written for it; a lookup sees the same in both, up to the canonical forms of what it finds
(`get?_canonical`).  **Values are equal when their canonical forms agree**, with numbers compared as numbers: a whole
number is never equal to a floating-point one, and `0.0` equals `-0.0`.
-/
namespace FieldRules
namespace Value

/-- Adds a member to members in order of their names, unless its name is there. -/
def place (name : String) (v : Value) : List (String × Value) → List (String × Value)
  | [] => [(name, v)]
  | m :: rest =>
    if name < m.1 then (name, v) :: m :: rest
    else if name = m.1 then m :: rest
    else m :: place name v rest

mutual
def canonical : Value → Value
  | .array items => .array (canonicalItems items)
  | .object ms => .object (canonicalMembers ms)
  | v => v

def canonicalItems : List Value → List Value
  | [] => []
  | v :: items => canonical v :: canonicalItems items

/-- The later members come first, so that they keep their names. -/
def canonicalMembers : List (String × Value) → List (String × Value)
  | [] => []
  | (name, v) :: ms => place name (canonical v) (canonicalMembers ms)
end

/-! ## What the canonical form holds -/

/-- Names in increasing order, none of them twice. -/
def Ascending (ms : List (String × Value)) : Prop := (ms.map Prod.fst).Pairwise (· < ·)

theorem Ascending.nodup {ms : List (String × Value)} (h : Ascending ms) : (ms.map Prod.fst).Nodup :=
  List.Pairwise.imp String.ne_of_lt h

theorem ascending_cons_iff (m : String × Value) (ms : List (String × Value)) :
    Ascending (m :: ms) ↔ (∀ k ∈ ms.map Prod.fst, m.1 < k) ∧ Ascending ms :=
  List.pairwise_cons

theorem mem_map_fst_place (name : String) (v : Value) (k : String) :
    ∀ ms : List (String × Value), k ∈ (place name v ms).map Prod.fst ↔ k = name ∨ k ∈ ms.map Prod.fst
  | [] => by simp [place]
  | m :: rest => by
    rw [place]
    split
    · simp
    split
    · rename_i heq
      simp [heq]
    · rw [List.map_cons, List.mem_cons, mem_map_fst_place name v k rest, List.map_cons, List.mem_cons]
      exact or_left_comm

theorem ascending_place (name : String) (v : Value) :
    ∀ ms : List (String × Value), Ascending ms → Ascending (place name v ms)
  | [], _ => List.pairwise_singleton _ _
  | m :: rest, h => by
    obtain ⟨hfirst, hrest⟩ := (ascending_cons_iff m rest).1 h
    rw [place]
    split
    · rename_i hlt
      refine (ascending_cons_iff _ _).2 ⟨fun k hk => ?_, h⟩
      rw [List.map_cons, List.mem_cons] at hk
      cases hk with
      | inl hk => exact hk ▸ hlt
      | inr hk => exact String.lt_trans hlt (hfirst k hk)
    split
    · exact h
    · rename_i hlt heq
      refine (ascending_cons_iff _ _).2 ⟨fun k hk => ?_, ascending_place name v rest hrest⟩
      rw [mem_map_fst_place] at hk
      cases hk with
      | inl hk => exact hk ▸ Std.lt_of_le_of_ne (String.not_lt.1 hlt) (Ne.symm heq)
      | inr hk => exact hfirst k hk

/-- **A member is placed unless its name is there**, and changes nothing else. -/
theorem lookup_place (name : String) (v : Value) (k : String) :
    ∀ ms : List (String × Value), Ascending ms →
      (place name v ms).lookup k = (ms.lookup k).or (if k = name then some v else none)
  | [], _ => by simp [place, Table.lookup_cons_eq]
  | (i, w) :: rest, h => by
    obtain ⟨hfirst, hrest⟩ := (ascending_cons_iff (i, w) rest).1 h
    rw [place]
    split
    · rename_i hlt
      rw [Table.lookup_cons_eq k name]
      by_cases hk : k = name
      · -- `name` comes before every name that is there
        have hnone : ((i, w) :: rest).lookup k = none := by
          rw [Table.lookup_eq_none_iff_not_mem, List.map_cons, List.mem_cons, not_or, hk]
          exact ⟨String.ne_of_lt hlt, fun hm => String.ne_of_lt (String.lt_trans hlt (hfirst name hm)) rfl⟩
        rw [hnone, if_pos hk, Option.none_or]
      · rw [if_neg hk, if_neg hk, Option.or_none]
    split
    · rename_i heq
      subst heq
      rw [Table.lookup_cons_eq]
      by_cases hk : k = name
      · rw [if_pos hk, Option.some_or]
      · rw [if_neg hk, if_neg hk, Option.or_none]
    · rename_i heq
      rw [Table.lookup_cons_eq, Table.lookup_cons_eq, lookup_place name v k rest hrest]
      by_cases hk : k = i
      · rw [if_pos hk, if_pos hk, Option.some_or]
      · rw [if_neg hk, if_neg hk]

theorem ascending_canonicalMembers : ∀ ms : List (String × Value), Ascending (canonicalMembers ms)
  | [] => List.Pairwise.nil
  | (name, v) :: ms => by
    rw [canonicalMembers]
    exact ascending_place name v.canonical _ (ascending_canonicalMembers ms)

theorem lookup_canonicalMembers (k : String) :
    ∀ ms : List (String × Value), (canonicalMembers ms).lookup k = (ms.reverse.lookup k).map canonical
  | [] => rfl
  | (name, v) :: ms => by
    rw [canonicalMembers, lookup_place name v.canonical k _ (ascending_canonicalMembers ms), lookup_canonicalMembers k ms,
      List.reverse_cons, List.lookup_append, Table.lookup_cons_eq]
    cases ms.reverse.lookup k with
    | some w => rfl
    | none => by_cases hk : k = name <;> simp [hk]

theorem ascending_of_canonical_eq_object {v : Value} {ms : List (String × Value)} (h : v.canonical = .object ms) :
    Ascending ms := by
  cases v with
  | object ns =>
    rw [canonical, Value.object.injEq] at h
    exact h ▸ ascending_canonicalMembers ns
  | _ => simp [canonical] at h

theorem exists_canonical_of_mem {ms : List (String × Value)} {m : String × Value} (hm : m ∈ canonicalMembers ms) :
    ∃ v, canonical v = m.2 := by
  have hlookup := (Table.lookup_eq_some_iff_mem m.1 m.2 _ (ascending_canonicalMembers ms).nodup).2 hm
  rw [lookup_canonicalMembers] at hlookup
  obtain ⟨v, -, hv⟩ := Option.map_eq_some_iff.1 hlookup
  exact ⟨v, hv⟩

/-- **The canonical form has the same names, with the canonical forms of the same values under them.** -/
theorem get?_canonical (v : Value) (k : String) : v.canonical.get? k = (v.get? k).map canonical := by
  cases v with
  | object ms =>
    have hnodup := (ascending_canonicalMembers ms).nodup
    rw [canonical, get?_object_entries ⟨canonicalMembers ms, hnodup⟩ k, Table.get?, lookup_canonicalMembers, get?]
  | _ => simp [canonical, get?]

/-! ## Equality -/

mutual
/-- The same value, member for member. -/
def agrees : Value → Value → Bool
  | .null, .null => true
  | .bool a, .bool b => a == b
  | .int m, .int n => m == n
  | .float x, .float y => x.equal y
  | .string s, .string t => s == t
  | .array xs, .array ys => agreesItems xs ys
  | .object ms, .object ns => agreesMembers ms ns
  | _, _ => false

def agreesItems : List Value → List Value → Bool
  | [], [] => true
  | x :: xs, y :: ys => agrees x y && agreesItems xs ys
  | _, _ => false

def agreesMembers : List (String × Value) → List (String × Value) → Bool
  | [], [] => true
  | (j, x) :: ms, (k, y) :: ns => j == k && agrees x y && agreesMembers ms ns
  | _, _ => false
end

def equal (v w : Value) : Bool := agrees v.canonical w.canonical

end Value
end FieldRules
