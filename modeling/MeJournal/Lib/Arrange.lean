import MeJournal.Lib.Table

/-!
# Rows in the order of a list of keys

`arrange key ks rows` puts rows where their keys stand in `ks`.  Rows of other keys come last and
keep their order.

* `filter_arrange`, `map_arrange`, `arrange_append` — rows selected, rewritten and added.
* `arrange_perm` — rows with the keys `ks`, in any order, come out as `ks` says.
* `rows_eq_arrange` — the keys arranged are the rows arranged.
-/

namespace Arrange

variable {α : Type*} (r : α → α → Prop) [DecidableRel r]

/-! ## Sorting is stable -/

theorem filter_orderedInsert [IsTrans α r] (p : α → Bool) (a : α) {l : List α}
    (hl : l.Pairwise r) : (l.orderedInsert r a).filter p =
      if p a then (l.filter p).orderedInsert r a else l.filter p := by
  induction l with
  | nil => cases hp : p a <;> simp [hp]
  | cons b l ih =>
    obtain ⟨hb, hl⟩ := List.pairwise_cons.1 hl
    by_cases hab : r a b
    · rw [List.orderedInsert_cons_of_le r l hab, List.filter_cons]
      split
      · -- what is left of `b :: l` still comes after `a`
        cases hrest : (b :: l).filter p with
        | nil => rfl
        | cons c rest =>
          have hc : c ∈ b :: l := List.mem_of_mem_filter (hrest ▸ List.mem_cons_self)
          have hac : r a c := by
            rcases List.mem_cons.1 hc with rfl | hc
            · exact hab
            · exact IsTrans.trans a b c hab (hb c hc)
          rw [List.orderedInsert_cons_of_le r rest hac]
      · rfl
    · rw [List.orderedInsert_of_not_le r l hab, List.filter_cons, ih hl]
      cases hpa : p a with
      | false => simp only [Bool.false_eq_true, if_false, List.filter_cons]
      | true =>
        cases hpb : p b with
        | false => simp only [if_true, Bool.false_eq_true, if_false, List.filter_cons, hpb]
        | true =>
          simp only [if_true, List.filter_cons, hpb]
          rw [List.orderedInsert_of_not_le r _ hab]

theorem filter_insertionSort [Std.Total r] [IsTrans α r] (p : α → Bool) (l : List α) :
    (l.insertionSort r).filter p = (l.filter p).insertionSort r := by
  induction l with
  | nil => rfl
  | cons a l ih =>
    rw [List.insertionSort_cons, filter_orderedInsert r p a (List.pairwise_insertionSort r l), ih,
      List.filter_cons]
    split
    · rfl
    · rfl

theorem orderedInsert_append {a b : α} (hab : r a b) (l : List α) :
    (l ++ [b]).orderedInsert r a = l.orderedInsert r a ++ [b] := by
  induction l with
  | nil => exact List.orderedInsert_cons_of_le r [] hab
  | cons c l ih =>
    by_cases hac : r a c
    · rw [List.cons_append, List.orderedInsert_cons_of_le r _ hac,
        List.orderedInsert_cons_of_le r _ hac]
      rfl
    · rw [List.cons_append, List.orderedInsert_of_not_le r _ hac, ih,
        List.orderedInsert_of_not_le r _ hac]
      rfl

theorem insertionSort_append {b : α} {l : List α} (hb : ∀ a ∈ l, r a b) :
    (l ++ [b]).insertionSort r = l.insertionSort r ++ [b] := by
  induction l with
  | nil => rfl
  | cons a l ih =>
    rw [List.cons_append, List.insertionSort_cons, ih fun c hc => hb c (List.mem_cons_of_mem a hc),
      orderedInsert_append r (hb a List.mem_cons_self), List.insertionSort_cons]

end Arrange

/-! ## Arranging -/

section

variable {ρ κ : Type*} [DecidableEq κ] (key : ρ → κ) (ks : List κ)

/-- The key of `a` does not stand after that of `b`. -/
def Before (a b : ρ) : Prop := ks.idxOf (key a) ≤ ks.idxOf (key b)

instance : DecidableRel (Before key ks) :=
  fun a b => inferInstanceAs (Decidable (ks.idxOf (key a) ≤ ks.idxOf (key b)))

instance : Std.Total (Before key ks) := ⟨fun _ _ => le_total _ _⟩

instance : IsTrans ρ (Before key ks) := ⟨fun _ _ _ hab hbc => le_trans hab hbc⟩

def arrange (rows : List ρ) : List ρ := rows.insertionSort (Before key ks)

theorem perm_arrange (rows : List ρ) : (arrange key ks rows).Perm rows :=
  List.perm_insertionSort (Before key ks) rows

theorem filter_arrange (p : ρ → Bool) (rows : List ρ) :
    (arrange key ks rows).filter p = arrange key ks (rows.filter p) :=
  Arrange.filter_insertionSort (Before key ks) p rows

theorem map_arrange (rows : List ρ) :
    (arrange key ks rows).map key = arrange id ks (rows.map key) :=
  List.map_insertionSort (Before key ks) (Before id ks) key rows fun _ _ _ _ => Iff.rfl

variable {key ks}

/-- A row of another key comes last. -/
theorem arrange_append {b : ρ} (hb : key b ∉ ks) (rows : List ρ) :
    arrange key ks (rows ++ [b]) = arrange key ks rows ++ [b] := by
  refine Arrange.insertionSort_append (Before key ks) fun a _ => ?_
  rw [Before, List.idxOf_eq_length hb]
  exact List.idxOf_le_length

theorem arrange_perm {l : List κ} (hnodup : ks.Nodup) (h : l.Perm ks) : arrange id ks l = ks := by
  have hsorted : ks.Pairwise (Before id ks) := by
    refine List.pairwise_iff_getElem.2 fun i j hi hj hij => ?_
    rw [Before, id, id, hnodup.idxOf_getElem i hi, hnodup.idxOf_getElem j hj]
    exact hij.le
  refine ((perm_arrange id ks l).trans h).eq_of_pairwise (fun a b ha hb hab hba => ?_)
    (List.pairwise_insertionSort (Before id ks) l) hsorted
  have hmem : a ∈ ks := h.mem_iff.1 ((perm_arrange id ks l).mem_iff.1 ha)
  exact (List.idxOf_inj hmem).1 (le_antisymm hab hba)

/-- Selections of one table with the same keys in the same order. -/
theorem Table.eq_of_map_key (t : Table key) {l l' : List ρ} (hl : ∀ r ∈ l, r ∈ t.rows)
    (hl' : ∀ r ∈ l', r ∈ t.rows) (h : l.map key = l'.map key) : l = l' := by
  have hfind : ∀ m : List ρ, (∀ r ∈ m, r ∈ t.rows) → (m.map key).filterMap t.find = m := by
    intro m hm
    rw [List.filterMap_map]
    refine (List.filterMap_congr fun r hr => ?_).trans (List.filterMap_some)
    exact Table.find_eq_some.2 ⟨hm r hr, rfl⟩
  rw [← hfind l hl, h, hfind l' hl']

/-- **The rows of one table arranged**, if their keys are. -/
theorem rows_eq_arrange (t : Table key) {l l' : List ρ} (hl : ∀ r ∈ l, r ∈ t.rows)
    (hl' : ∀ r ∈ l', r ∈ t.rows) (h : l.map key = arrange id ks (l'.map key)) :
    l = arrange key ks l' := by
  refine t.eq_of_map_key hl (fun r hr => hl' r ((perm_arrange key ks l').mem_iff.1 hr)) ?_
  rw [h, map_arrange]

end
