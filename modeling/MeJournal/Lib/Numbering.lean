import Mathlib.Data.List.Nodup
import Mathlib.Data.List.Infix

/-!
# Numbering keys by their first use

Keys come in one after another; each gets the next number when it is first used, and keeps it.

* `firsts` — the distinct keys in the order of their first uses; `number` — place in it, from 1.
* `number_append` — a number, once given, stays; `number_inj` — a number names one key.
* `mem_numbers` — the numbers given are `1, …, m`.
* `number_lt` — a key used before another's first use has the smaller number.
-/

namespace Numbering

variable {K : Type*} [DecidableEq K]

/-- The distinct keys, in the order of their first uses. -/
def firsts (ks : List K) : List K :=
  ks.foldl (fun seen k => if k ∈ seen then seen else seen ++ [k]) []

/-- The number of a key. -/
def number (ks : List K) (k : K) : ℕ := (firsts ks).idxOf k + 1

theorem firsts_concat (ks : List K) (k : K) :
    firsts (ks ++ [k]) = if k ∈ firsts ks then firsts ks else firsts ks ++ [k] := by
  rw [firsts, List.foldl_append]
  rfl

@[simp] theorem mem_firsts {ks : List K} {k : K} : k ∈ firsts ks ↔ k ∈ ks := by
  induction ks using List.reverseRecOn with
  | nil => rfl
  | append_singleton ks k' ih =>
    rw [firsts_concat]
    split
    · rename_i hmem
      rw [ih, List.mem_append, List.mem_singleton]
      refine ⟨Or.inl, ?_⟩
      rintro (h | rfl)
      · exact h
      · exact ih.1 hmem
    · simp only [List.mem_append, List.mem_singleton, ih]

theorem firsts_concat_of_mem {ks : List K} {k : K} (h : k ∈ ks) :
    firsts (ks ++ [k]) = firsts ks := by
  rw [firsts_concat, if_pos (mem_firsts.2 h)]

theorem firsts_concat_fresh {ks : List K} {k : K} (h : k ∉ ks) :
    firsts (ks ++ [k]) = firsts ks ++ [k] := by
  rw [firsts_concat, if_neg (mt mem_firsts.1 h)]

theorem nodup_firsts (ks : List K) : (firsts ks).Nodup := by
  induction ks using List.reverseRecOn with
  | nil => exact List.nodup_nil
  | append_singleton ks k ih =>
    rw [firsts_concat]
    split
    · exact ih
    · rename_i hmem
      exact List.nodup_append.2 ⟨ih, List.nodup_singleton k, by grind⟩

theorem firsts_append (ks ls : List K) : firsts ks <+: firsts (ks ++ ls) := by
  induction ls using List.reverseRecOn with
  | nil => rw [List.append_nil]
  | append_singleton ls l ih =>
    rw [← List.append_assoc, firsts_concat]
    split
    · exact ih
    · exact ih.trans (List.prefix_append _ _)

/-! ## Numbers -/

theorem number_pos (ks : List K) (k : K) : 1 ≤ number ks k := Nat.le_add_left 1 _

theorem number_le {ks : List K} {k : K} (h : k ∈ ks) : number ks k ≤ (firsts ks).length :=
  List.idxOf_lt_length_of_mem (mem_firsts.2 h)

/-- **A number, once given, stays.** -/
theorem number_append {ks : List K} {k : K} (h : k ∈ ks) (ls : List K) :
    number (ks ++ ls) k = number ks k := by
  rw [number, number, (firsts_append ks ls).idxOf_eq_of_mem (mem_firsts.2 h)]

theorem number_concat_of_mem {ks : List K} {k : K} (h : k ∈ ks) (l : K) :
    number (ks ++ [k]) l = number ks l := by
  rw [number, number, firsts_concat_of_mem h]

theorem number_concat_fresh {ks : List K} {k : K} (h : k ∉ ks) :
    number (ks ++ [k]) k = (firsts ks).length + 1 := by
  rw [number, firsts_concat_fresh h, List.idxOf_append, if_neg (mt mem_firsts.1 h)]
  simp

/-- **A number names one key.** -/
theorem number_inj {ks : List K} {k k' : K} (h : k ∈ ks) :
    number ks k = number ks k' ↔ k = k' := by
  rw [number, number, Nat.add_right_cancel_iff, List.idxOf_inj (mem_firsts.2 h)]

/-- **The numbers given are `1, …, m`.** -/
theorem mem_numbers {ks : List K} {n : ℕ} :
    n ∈ ks.map (number ks) ↔ 1 ≤ n ∧ n ≤ (firsts ks).length := by
  rw [List.mem_map]
  constructor
  · rintro ⟨k, hk, rfl⟩
    exact ⟨number_pos ks k, number_le hk⟩
  · rintro ⟨hpos, hle⟩
    have hlt : n - 1 < (firsts ks).length := by omega
    refine ⟨(firsts ks)[n - 1], mem_firsts.1 (List.getElem_mem hlt), ?_⟩
    rw [number, (nodup_firsts ks).idxOf_getElem]
    omega

/-- **Numbers are given in the order of the first uses.** -/
theorem number_lt {ks ls : List K} {k k' : K} (h : k ∈ ks) (h' : k' ∉ ks) :
    number (ks ++ ls) k < number (ks ++ ls) k' := by
  obtain ⟨rest, hrest⟩ := firsts_append ks ls
  have hle := number_le h
  rw [number_append h, number, number, ← hrest, List.idxOf_append, if_neg (mt mem_firsts.1 h')]
  rw [number] at hle
  omega

end Numbering
