import Mathlib.Data.List.Sort
import Mathlib.Logic.Equiv.Basic

/-!
# The best of some rows

`ORDER BY rank DESC LIMIT k` when ranks may be equal.  The rows come in any order, and those of
equal rank may keep it.

* `Ranking.top` — the first `k` rows of a sort by rank.
* `Ranking.Decided` — no row of a tie is among the first `k`.
* `Ranking.top_perm`, `Ranking.decided_of_top` — the order of the rows plays no part, exactly then.
-/

namespace Ranking

variable {α κ : Type*} [LinearOrder κ]

def Better (rank : α → κ) (a b : α) : Prop := rank b ≤ rank a

instance (rank : α → κ) : DecidableRel (Better rank) :=
  fun a b => inferInstanceAs (Decidable (rank b ≤ rank a))

instance (rank : α → κ) : Std.Total (Better rank) := ⟨fun a b => le_total (rank b) (rank a)⟩

instance (rank : α → κ) : IsTrans α (Better rank) := ⟨fun _ _ _ hab hbc => le_trans hbc hab⟩

def top (rank : α → κ) (k : Nat) (rows : List α) : List α :=
  (rows.insertionSort (Better rank)).take k

/-- Rows of equal rank come after `k` better ones. -/
def Decided (rank : α → κ) (k : Nat) (rows : List α) : Prop :=
  ∀ a ∈ rows, ∀ b ∈ rows, rank a = rank b → a ≠ b →
    k ≤ (rows.filter fun c => rank a < rank c).length

variable {rank : α → κ} {k : Nat}

theorem mem_top {rows : List α} {a : α} (h : a ∈ top rank k rows) : a ∈ rows :=
  (List.mem_insertionSort _).1 (List.mem_of_mem_take h)

/-- The rows that are better than the one at a position stand before it. -/
theorem better_length_le {s : List α} (hs : s.Pairwise (Better rank)) {i : Nat} {a : α}
    (ha : s[i]? = some a) : (s.filter fun c => rank a < rank c).length ≤ i := by
  obtain ⟨hi, rfl⟩ := List.getElem?_eq_some_iff.1 ha
  have hdrop : (s.drop i).filter (fun c => rank s[i] < rank c) = [] := by
    rw [List.filter_eq_nil_iff]
    intro c hc
    obtain ⟨j, hj, rfl⟩ := List.mem_iff_getElem.1 hc
    rw [List.getElem_drop, decide_eq_true_eq, not_lt]
    rcases Nat.eq_zero_or_pos j with rfl | hpos
    · exact le_rfl
    · exact List.pairwise_iff_getElem.1 hs i (i + j) hi _ (by omega)
  have hsplit : s.filter (fun c => rank s[i] < rank c) =
      (s.take i).filter fun c => rank s[i] < rank c := by
    rw [← List.append_nil ((s.take i).filter _), ← hdrop, ← List.filter_append,
      List.take_append_drop]
  rw [hsplit]
  exact (List.length_filter_le _ _).trans (List.length_take_le i s)

/-- **Decided**: the rows in any other order give the same. -/
theorem top_perm {l l' : List α} (h : Decided rank k l) (hperm : l.Perm l') :
    top rank k l = top rank k l' := by
  have hs := List.pairwise_insertionSort (Better rank) l
  have hs' := List.pairwise_insertionSort (Better rank) l'
  have hl : (l.insertionSort (Better rank)).Perm l := List.perm_insertionSort _ _
  have hl' : (l'.insertionSort (Better rank)).Perm l' := List.perm_insertionSort _ _
  rw [top, top]
  generalize l.insertionSort (Better rank) = s at hs hl
  generalize l'.insertionSort (Better rank) = s' at hs' hl'
  have hss' : s.Perm s' := hl.trans (hperm.trans hl'.symm)
  -- the ranks of the two are one sorted list
  have hranks : s.map rank = s'.map rank := by
    refine (hss'.map rank).eq_of_pairwise (fun _ _ _ _ hab hba => le_antisymm hba hab)
      (List.pairwise_map.2 hs) (List.pairwise_map.2 hs')
  refine List.ext_getElem? fun i => ?_
  rw [List.getElem?_take, List.getElem?_take]
  split
  · rename_i hi
    have hrank : s[i]?.map rank = s'[i]?.map rank := by
      rw [← List.getElem?_map, hranks, List.getElem?_map]
    cases ha : s[i]? with
    | none =>
      rw [ha] at hrank
      exact (Option.map_eq_none_iff.1 hrank.symm).symm
    | some a =>
      obtain ⟨b, hb, hba⟩ : ∃ b, s'[i]? = some b ∧ rank b = rank a := by
        rw [ha] at hrank
        exact Option.map_eq_some_iff.1 hrank.symm
      rw [hb]
      by_contra hne
      have hmem : a ∈ l := hl.mem_iff.1 (List.mem_of_getElem? ha)
      have hmem' : b ∈ l := hperm.mem_iff.2 (hl'.mem_iff.1 (List.mem_of_getElem? hb))
      have hmany := h a hmem b hmem' hba.symm fun hab => hne (congrArg some hab)
      have hfew := better_length_le hs ha
      rw [(hl.filter _).length_eq] at hfew
      omega
  · rfl

/-- Two rows of a list, swapped. -/
theorem map_swap_perm [DecidableEq α] {s : List α} (hs : s.Nodup) {a b : α} (ha : a ∈ s)
    (hb : b ∈ s) : (s.map (Equiv.swap a b)).Perm s := by
  have hmem : ∀ d ∈ s, Equiv.swap a b d ∈ s := by
    intro d hd
    by_cases hda : d = a
    · rwa [hda, Equiv.swap_apply_left]
    by_cases hdb : d = b
    · rwa [hdb, Equiv.swap_apply_right]
    · rwa [Equiv.swap_apply_of_ne_of_ne hda hdb]
  refine (List.perm_ext_iff_of_nodup (hs.map (Equiv.swap a b).injective) hs).2 fun c => ?_
  constructor
  · intro hc
    obtain ⟨d, hd, rfl⟩ := List.mem_map.1 hc
    exact hmem d hd
  · intro hc
    exact List.mem_map.2 ⟨Equiv.swap a b c, hmem c hc, Equiv.swap_apply_self a b c⟩

/-- Rows of one rank may be swapped without a sort noticing. -/
theorem map_swap_pairwise [DecidableEq α] {s : List α} (hs : s.Pairwise (Better rank)) {a b : α}
    (hrank : rank a = rank b) : (s.map (Equiv.swap a b)).Pairwise (Better rank) := by
  have hsame : ∀ c, rank (Equiv.swap a b c) = rank c := by
    intro c
    by_cases hca : c = a
    · rw [hca, Equiv.swap_apply_left, hrank]
    by_cases hcb : c = b
    · rw [hcb, Equiv.swap_apply_right, hrank]
    · rw [Equiv.swap_apply_of_ne_of_ne hca hcb]
  refine List.pairwise_map.2 (hs.imp fun {c d} hcd => ?_)
  rw [Better, hsame, hsame]
  exact hcd

/-- A row of a tie is not among the first, or the other one could stand in its place. -/
theorem tied_not_first [DecidableEq α] {s : List α} (hnodup : s.Nodup)
    (hs : s.Pairwise (Better rank))
    (h : ∀ l : List α, l.Perm s → l.Pairwise (Better rank) → l.take k = s.take k) {a b : α}
    (ha : a ∈ s) (hb : b ∈ s) (hrank : rank a = rank b) (hne : a ≠ b) : a ∉ s.take k := by
  intro hfirst
  have hswapped := h _ (map_swap_perm hnodup ha hb) (map_swap_pairwise hs hrank)
  rw [← List.map_take] at hswapped
  have hfixed := List.map_inj_left.1 (hswapped.trans (List.map_id _).symm) a hfirst
  rw [id, Equiv.swap_apply_left] at hfixed
  exact hne hfixed.symm

/-- **Only decided rows** give the same in every order. -/
theorem decided_of_top [DecidableEq α] {rows : List α} (hnodup : rows.Nodup)
    (h : ∀ l l' : List α, l.Perm rows → l'.Perm rows → top rank k l = top rank k l') :
    Decided rank k rows := by
  have hs := List.pairwise_insertionSort (Better rank) rows
  have hl : (rows.insertionSort (Better rank)).Perm rows := List.perm_insertionSort _ _
  generalize rows.insertionSort (Better rank) = s at hs hl
  have hsame : ∀ l : List α, l.Perm s → l.Pairwise (Better rank) → l.take k = s.take k := by
    intro l hperm hsorted
    have htop := h l s (hperm.trans hl) hl
    rwa [top, top, hsorted.insertionSort_eq, hs.insertionSort_eq] at htop
  have hlater : ∀ a ∈ s, ∀ b ∈ s, rank a = rank b → a ≠ b → a ∉ s.take k :=
    fun a ha b hb => tied_not_first (hl.nodup_iff.2 hnodup) hs hsame ha hb
  intro a ha b hb hrank hne
  have has : a ∈ s := hl.mem_iff.2 ha
  have hnot := hlater a has b (hl.mem_iff.2 hb) hrank hne
  have hdrop : a ∈ s.drop k := by
    rw [← List.take_append_drop k s, List.mem_append] at has
    exact has.resolve_left hnot
  have hbetter : ∀ c ∈ s.take k, rank a < rank c := by
    intro c hc
    have hle : rank a ≤ rank c := by
      rw [← List.take_append_drop k s] at hs
      exact (List.pairwise_append.1 hs).2.2 c hc a hdrop
    refine lt_of_le_of_ne hle fun heq => ?_
    exact hlater c (List.mem_of_mem_take hc) a has heq.symm (fun hca => hnot (hca ▸ hc)) hc
  have hlength : (s.take k).length = k := by
    have hpos := List.length_pos_of_mem hdrop
    rw [List.length_drop] at hpos
    rw [List.length_take, min_eq_left (by omega)]
  rw [← (hl.filter _).length_eq, ← hlength]
  refine (List.Sublist.filter _ (List.take_sublist k s)).length_le.trans' ?_
  rw [List.filter_eq_self.2 fun c hc => decide_eq_true (hbetter c hc)]

end Ranking
