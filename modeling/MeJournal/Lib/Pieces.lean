import Mathlib.Data.List.Forall2

/-!
# Maps that act piece by piece

A list is cut before each element of `p`.  A map of lists that may be computed piece by piece fixes
a list exactly if it fixes the pieces.

* `pieces` — the pieces of a list; `pieces_flatten`, `pieces_cut`.
* `PieceLocal` — the property; `PieceLocal.flatten` — the map of a list from those of its pieces.
* `PieceLocal.fixed_iff` — what the map fixes.
-/

namespace MeJournal

variable {α : Type} {p : α → Bool}

/-! ## Pieces -/

/-- The list begins with an element of `p`. -/
def StartsWith (p : α → Bool) (k : List α) : Prop := ∃ c y, k = c :: y ∧ p c = true

/-- Every piece but the first begins with an element of `p`. -/
def CutAt (p : α → Bool) (ks : List (List α)) : Prop := ∀ k ∈ ks.tail, StartsWith p k

theorem CutAt.tail {k : List α} {ks : List (List α)} (h : CutAt p (k :: ks)) : CutAt p ks :=
  fun j hj => h j (List.mem_of_mem_tail hj)

/-- An element in front of the pieces. -/
def addFront (p : α → Bool) (c : α) : List (List α) → List (List α)
  | [] => [[c]]
  | [] :: ks => [c] :: ks
  | (d :: k) :: ks => if p d then [c] :: (d :: k) :: ks else (c :: d :: k) :: ks

def pieces (p : α → Bool) (l : List α) : List (List α) := l.foldr (addFront p) []

theorem addFront_flatten (c : α) (ks : List (List α)) :
    (addFront p c ks).flatten = c :: ks.flatten := by
  unfold addFront
  split
  · rfl
  · rfl
  · split <;> rfl

theorem addFront_cut (c : α) {ks : List (List α)} (h : CutAt p ks) : CutAt p (addFront p c ks) := by
  unfold addFront
  split
  · exact fun k hk => absurd hk List.not_mem_nil
  · exact h
  · rename_i d k ks
    split
    · rename_i hd
      intro j hj
      rcases List.mem_cons.1 hj with rfl | hj
      · exact ⟨d, k, rfl, hd⟩
      · exact h j hj
    · exact h

theorem pieces_flatten (p : α → Bool) (l : List α) : (pieces p l).flatten = l := by
  induction l with
  | nil => rfl
  | cons c l ih => rw [pieces, List.foldr_cons, addFront_flatten, ← pieces, ih]

theorem pieces_cut (p : α → Bool) (l : List α) : CutAt p (pieces p l) := by
  induction l with
  | nil => exact fun k hk => absurd hk List.not_mem_nil
  | cons c l ih => exact addFront_cut c ih

/-! ## Maps -/

/-- `f` may be computed before and after each element of `p` apart. -/
structure PieceLocal (p : α → Bool) (f : List α → List α) : Prop where
  nil : f [] = []
  append : ∀ x c y, p c = true → f (x ++ c :: y) = f x ++ f (c :: y)

namespace PieceLocal

variable {f : List α → List α} (h : PieceLocal p f)

include h

theorem append_flatten (k : List α) {ks : List (List α)} (hks : CutAt p (k :: ks)) :
    f (k ++ ks.flatten) = f k ++ f ks.flatten := by
  cases ks with
  | nil => rw [List.flatten_nil, h.nil, List.append_nil, List.append_nil]
  | cons k' ks =>
    obtain ⟨c, y, rfl, hc⟩ := hks k' List.mem_cons_self
    rw [List.flatten_cons, List.cons_append, h.append k c _ hc]

/-- **The map of a list is put together from the maps of its pieces.** -/
theorem flatten {ks : List (List α)} (hks : CutAt p ks) : f ks.flatten = (ks.map f).flatten := by
  induction ks with
  | nil => exact h.nil
  | cons k ks ih =>
    rw [List.flatten_cons, h.append_flatten k hks, ih hks.tail, List.map_cons, List.flatten_cons]

/-- **A list is fixed exactly if its pieces are,** where `f` keeps a size that adds up. -/
theorem fixed_iff (size : List α → Nat) (hadd : ∀ x y, size (x ++ y) = size x + size y)
    (hzero : ∀ x, size x = 0 → x = []) (hsize : ∀ x, size (f x) = size x)
    {ks : List (List α)} (hks : CutAt p ks) :
    f ks.flatten = ks.flatten ↔ ∀ k ∈ ks, f k = k := by
  induction ks with
  | nil => exact iff_of_true h.nil fun k hk => absurd hk List.not_mem_nil
  | cons k ks ih =>
    rw [List.flatten_cons, h.append_flatten k hks, List.forall_mem_cons, ← ih hks.tail]
    constructor
    · intro heq
      -- neither `f k` nor `k` can be a part of the other
      have hk : f k = k := by
        rcases List.append_eq_append_iff.1 heq with ⟨z, hz, -⟩ | ⟨z, hz, -⟩
        · have hsum := hadd (f k) z
          rw [← hz, hsize] at hsum
          rw [hzero z (by omega), List.append_nil] at hz
          exact hz.symm
        · have hsum := hadd k z
          rw [← hz, hsize] at hsum
          rw [hzero z (by omega), List.append_nil] at hz
          exact hz
      rw [hk] at heq
      exact ⟨hk, List.append_cancel_left heq⟩
    · rintro ⟨hk, hrest⟩
      rw [hk, hrest]

end PieceLocal

end MeJournal
