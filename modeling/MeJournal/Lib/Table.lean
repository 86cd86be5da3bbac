import Mathlib.Data.List.Nodup
import Mathlib.Data.List.Sort

/-!
# Tables with a primary key

`Table key` is a list of rows whose keys are pairwise distinct; the constraint is a field, so
no operation can build a table that breaks it.

* `find` — the row with a key (`find_eq_some`: exactly the member with that key).
* `insert?` — append a row, refused when the key is taken.
* `put` — overwrite the row that has the new row's key; `upsert` appends it when there is none.
* `mapRows` — rewrite every row, keys kept; `restrict` — the rows that meet a condition.
* `countP_le_one` — a condition that identifies rows selects at most one.
* `insertionSort_filter_congr` — a sorted selection depends only on which rows are selected.
-/

/-- Rows with pairwise distinct keys. -/
structure Table {ρ κ : Type*} (key : ρ → κ) where
  rows : List ρ
  pk : (rows.map key).Nodup

namespace Table

variable {ρ κ : Type*} {key : ρ → κ}

@[ext] theorem ext {t u : Table key} (h : t.rows = u.rows) : t = u := by
  cases t; cases u; simp_all

/-- The table with no rows. -/
def empty : Table key := ⟨[], List.nodup_nil⟩

@[simp] theorem empty_rows : (empty : Table key).rows = [] := rfl

theorem eq_of_key_eq (t : Table key) {r s : ρ} (hr : r ∈ t.rows) (hs : s ∈ t.rows)
    (h : key r = key s) : r = s :=
  List.inj_on_of_nodup_map t.pk hr hs h

theorem rows_nodup (t : Table key) : t.rows.Nodup := t.pk.of_map key

/-- A condition that at most one row meets. -/
theorem countP_le_one (t : Table key) {p : ρ → Bool}
    (h : ∀ r ∈ t.rows, ∀ s ∈ t.rows, p r = true → p s = true → r = s) :
    t.rows.countP p ≤ 1 := by
  rw [List.countP_eq_length_filter]
  have hnodup := t.rows_nodup.filter p
  have hmem : ∀ r, r ∈ t.rows.filter p → r ∈ t.rows ∧ p r = true := fun r => List.mem_filter.1
  match hrows : t.rows.filter p with
  | [] => simp
  | [r] => simp
  | r :: s :: rest =>
    rw [hrows] at hnodup hmem
    obtain ⟨hr, hpr⟩ := hmem r (by simp)
    obtain ⟨hs, hps⟩ := hmem s (by simp)
    have heq : r = s := h r hr s hs hpr hps
    exact absurd (heq ▸ List.mem_cons_self) (List.nodup_cons.1 hnodup).1

/-- `ORDER BY` a total order that separates keys: the selected rows decide the result. -/
theorem insertionSort_filter_congr {t u : Table key} (le : ρ → ρ → Prop) [DecidableRel le]
    [Std.Total le] [IsTrans ρ le] (hkey : ∀ r s, le r s → le s r → key r = key s)
    {p : ρ → Bool} (h : ∀ r, p r = true → (r ∈ t.rows ↔ r ∈ u.rows)) :
    (t.rows.filter p).insertionSort le = (u.rows.filter p).insertionSort le := by
  have hmem : ∀ r, r ∈ t.rows.filter p ↔ r ∈ u.rows.filter p := by
    intro r
    rw [List.mem_filter, List.mem_filter]
    exact and_congr_left fun hp => h r hp
  have hperm : (t.rows.filter p).Perm (u.rows.filter p) :=
    (List.perm_ext_iff_of_nodup (t.rows_nodup.filter p) (u.rows_nodup.filter p)).2 hmem
  have hsorted : ((t.rows.filter p).insertionSort le).Perm ((u.rows.filter p).insertionSort le) :=
    (List.perm_insertionSort le _).trans (hperm.trans (List.perm_insertionSort le _).symm)
  refine hsorted.eq_of_pairwise ?_ (List.pairwise_insertionSort le _)
    (List.pairwise_insertionSort le _)
  intro r s hr hs hrs hsr
  rw [List.mem_insertionSort, List.mem_filter] at hr hs
  exact t.eq_of_key_eq hr.1 ((h s hs.2).2 hs.1) (hkey r s hrs hsr)

/-- Rewrite every row by a function that keeps keys. -/
def mapRows (t : Table key) (f : ρ → ρ) (hf : ∀ r, key (f r) = key r) : Table key :=
  ⟨t.rows.map f, by
    have hmap : (t.rows.map f).map key = t.rows.map key := by
      rw [List.map_map]; exact List.map_congr_left fun r _ => hf r
    rw [hmap]; exact t.pk⟩

@[simp] theorem mapRows_rows (t : Table key) (f : ρ → ρ) (hf : ∀ r, key (f r) = key r) :
    (t.mapRows f hf).rows = t.rows.map f := rfl

/-- `SELECT … WHERE p`. -/
def restrict (t : Table key) (p : ρ → Bool) : Table key :=
  ⟨t.rows.filter p, t.pk.sublist (List.filter_sublist.map key)⟩

@[simp] theorem restrict_rows (t : Table key) (p : ρ → Bool) :
    (t.restrict p).rows = t.rows.filter p := rfl

variable [DecidableEq κ]

/-- `SELECT … WHERE key = k`. -/
def find (t : Table key) (k : κ) : Option ρ := t.rows.find? fun r => key r = k

theorem find_eq_some {t : Table key} {k : κ} {r : ρ} :
    t.find k = some r ↔ r ∈ t.rows ∧ key r = k := by
  constructor
  · intro h
    exact ⟨List.mem_of_find?_eq_some h, by simpa using List.find?_some h⟩
  · rintro ⟨hr, rfl⟩
    cases hf : t.find (key r) with
    | none =>
      have hnone := List.find?_eq_none.1 hf r hr
      simp at hnone
    | some s =>
      have hs := List.mem_of_find?_eq_some hf
      have hkey : key s = key r := by simpa using List.find?_some hf
      rw [t.eq_of_key_eq hs hr hkey]

theorem find_eq_none {t : Table key} {k : κ} :
    t.find k = none ↔ ∀ r ∈ t.rows, key r ≠ k := by
  simp [find, List.find?_eq_none]

/-- Looking up a rewritten row. -/
theorem find_mapRows (t : Table key) (f : ρ → ρ) (hf : ∀ r, key (f r) = key r) (k : κ) :
    (t.mapRows f hf).find k = (t.find k).map f := by
  simp only [find, mapRows_rows, List.find?_map, Function.comp_def, hf]

/-- Whether a row has the key `k`. -/
def has (t : Table key) (k : κ) : Bool := t.rows.any fun r => key r = k

theorem has_iff {t : Table key} {k : κ} : t.has k = true ↔ ∃ r ∈ t.rows, key r = k := by
  simp [has]

theorem has_eq_false {t : Table key} {k : κ} : t.has k = false ↔ ∀ r ∈ t.rows, key r ≠ k := by
  simp [has]

/-- `INSERT`: `none` when the primary key is taken. -/
def insert? (t : Table key) (r : ρ) : Option (Table key) :=
  if h : ∀ s ∈ t.rows, key s ≠ key r then
    some ⟨t.rows ++ [r], by
      rw [List.map_append, List.nodup_append]
      refine ⟨t.pk, by simp, ?_⟩
      intro a ha b hb hab
      obtain ⟨s, hs, rfl⟩ := List.mem_map.1 ha
      simp only [List.map_cons, List.map_nil, List.mem_singleton] at hb
      exact h s hs (hab.trans hb)⟩
  else none

theorem insert?_eq_some {t u : Table key} {r : ρ} :
    t.insert? r = some u ↔ (∀ s ∈ t.rows, key s ≠ key r) ∧ u.rows = t.rows ++ [r] := by
  unfold insert?
  split
  · rename_i h
    constructor
    · intro he
      cases he
      exact ⟨h, rfl⟩
    · rintro ⟨_, hu⟩
      exact congrArg some (ext hu.symm)
  · rename_i h
    simp [h]

/-- An insert under a free key succeeds. -/
theorem insert?_of_fresh {t : Table key} {r : ρ} (h : ∀ s ∈ t.rows, key s ≠ key r) :
    ∃ u, t.insert? r = some u :=
  ⟨_, dif_pos h⟩

theorem insert?_eq_none {t : Table key} {r : ρ} :
    t.insert? r = none ↔ ∃ s ∈ t.rows, key s = key r := by
  unfold insert?
  split
  · rename_i h
    simpa using h
  · rename_i h
    simpa using h

theorem mem_insert? {t u : Table key} {r s : ρ} (h : t.insert? r = some u) :
    s ∈ u.rows ↔ s ∈ t.rows ∨ s = r := by
  rw [(insert?_eq_some.1 h).2, List.mem_append, List.mem_singleton]

/-- Looking up after an insert. -/
theorem find_insert? {t u : Table key} {r : ρ} (h : t.insert? r = some u) (k : κ) :
    u.find k = if key r = k then some r else t.find k := by
  obtain ⟨hfresh, hrows⟩ := insert?_eq_some.1 h
  split
  · rename_i hk
    exact find_eq_some.2 ⟨by rw [hrows]; simp, hk⟩
  · rename_i hk
    rw [find, hrows, List.find?_append, ← find]
    simp [hk]

/-- `UPDATE … WHERE key = …`: the row with `r`'s key becomes `r`. -/
def put (t : Table key) (r : ρ) : Table key :=
  t.mapRows (fun s => if key s = key r then r else s) fun s => by
    split
    · rename_i h; exact h.symm
    · rfl

@[simp] theorem put_rows (t : Table key) (r : ρ) :
    (t.put r).rows = t.rows.map fun s => if key s = key r then r else s := rfl

/-- Every row of the updated table is the new row or an untouched one. -/
theorem mem_put {t : Table key} {r s : ρ} (h : s ∈ (t.put r).rows) :
    s = r ∨ (s ∈ t.rows ∧ key s ≠ key r) := by
  obtain ⟨a, ha, hs⟩ := List.mem_map.1 h
  by_cases hk : key a = key r
  · rw [if_pos hk] at hs
    exact Or.inl hs.symm
  · rw [if_neg hk] at hs
    subst hs
    exact Or.inr ⟨ha, hk⟩

theorem mem_put_iff {t : Table key} {r s : ρ} :
    s ∈ (t.put r).rows ↔ s = r ∧ t.has (key r) = true ∨ s ∈ t.rows ∧ key s ≠ key r := by
  rw [has_iff, put_rows, List.mem_map]
  constructor
  · rintro ⟨a, ha, rfl⟩
    split
    · rename_i hk
      exact Or.inl ⟨rfl, a, ha, hk⟩
    · rename_i hk
      exact Or.inr ⟨ha, hk⟩
  · rintro (⟨rfl, a, ha, hk⟩ | ⟨hs, hk⟩)
    · exact ⟨a, ha, if_pos hk⟩
    · exact ⟨s, hs, if_neg hk⟩

theorem mem_put_of_ne {t : Table key} {r s : ρ} (hs : s ∈ t.rows) (hk : key s ≠ key r) :
    s ∈ (t.put r).rows :=
  List.mem_map.2 ⟨s, hs, if_neg hk⟩

theorem mem_put_self {t : Table key} {r s : ρ} (hs : s ∈ t.rows) (hk : key s = key r) :
    r ∈ (t.put r).rows :=
  List.mem_map.2 ⟨s, hs, if_pos hk⟩

/-- The last row written under a key wins. -/
theorem put_put {t : Table key} {r s : ρ} (h : key s = key r) : (t.put r).put s = t.put s := by
  apply ext
  simp only [put_rows, List.map_map]
  refine List.map_congr_left fun a _ => ?_
  by_cases ha : key a = key r
  · simp [ha, h]
  · simp [ha, h]

/-- Overwriting the row just inserted. -/
theorem insert?_put_rows {t u : Table key} {r s : ρ} (h : t.insert? r = some u)
    (hk : key s = key r) : (u.put s).rows = t.rows ++ [s] := by
  obtain ⟨hfresh, hu⟩ := insert?_eq_some.1 h
  rw [put_rows, hu, List.map_append, List.map_singleton, if_pos hk.symm]
  congr 1
  refine (List.map_congr_left fun a ha => ?_).trans (List.map_id _)
  exact if_neg fun he => hfresh a ha (he.trans hk)

/-- Rewriting commutes with an insert. -/
theorem insert?_mapRows (t : Table key) (f : ρ → ρ) (hf : ∀ r, key (f r) = key r) (r : ρ) :
    (t.mapRows f hf).insert? (f r) = (t.insert? r).map fun u => u.mapRows f hf := by
  cases hi : t.insert? r with
  | none =>
    obtain ⟨s, hs, hk⟩ := insert?_eq_none.1 hi
    refine insert?_eq_none.2 ⟨f s, List.mem_map_of_mem hs, ?_⟩
    rw [hf, hf, hk]
  | some u =>
    obtain ⟨hfresh, hu⟩ := insert?_eq_some.1 hi
    refine insert?_eq_some.2 ⟨fun s hs => ?_, by simp [hu]⟩
    obtain ⟨a, ha, rfl⟩ := List.mem_map.1 hs
    rw [hf, hf]
    exact hfresh a ha

/-- Rewriting commutes with an update. -/
theorem put_mapRows (t : Table key) (f : ρ → ρ) (hf : ∀ r, key (f r) = key r) (r : ρ) :
    (t.put r).mapRows f hf = (t.mapRows f hf).put (f r) := by
  apply ext
  simp only [mapRows_rows, put_rows, List.map_map]
  refine List.map_congr_left fun a _ => ?_
  by_cases ha : key a = key r
  · simp [ha, hf]
  · simp [ha, hf]

/-- Overwriting a key that no row has. -/
theorem put_of_absent {t : Table key} {r : ρ} (h : ∀ s ∈ t.rows, key s ≠ key r) : t.put r = t := by
  apply ext
  rw [put_rows]
  exact (List.map_congr_left fun s hs => if_neg (h s hs)).trans (List.map_id _)

/-- An update that keeps the condition on the row it overwrites commutes with the restriction. -/
theorem restrict_put {t : Table key} {p : ρ → Bool} {r : ρ}
    (h : ∀ s ∈ t.rows, key s = key r → p s = p r) :
    (t.put r).restrict p = (t.restrict p).put r := by
  apply ext
  simp only [restrict_rows, put_rows, List.filter_map]
  congr 1
  refine List.filter_congr fun s hs => ?_
  by_cases hk : key s = key r
  · simp [hk, h s hs hk]
  · simp [hk]

/-- `put` where the key is taken, else append. -/
def upsert (t : Table key) (r : ρ) : Table key := (t.insert? r).getD (t.put r)

theorem upsert_rows_fresh {t : Table key} {r : ρ} (h : ∀ s ∈ t.rows, key s ≠ key r) :
    (t.upsert r).rows = t.rows ++ [r] := by
  cases hi : t.insert? r with
  | none =>
    obtain ⟨s, hs, hk⟩ := insert?_eq_none.1 hi
    exact absurd hk (h s hs)
  | some u => rw [upsert, hi, Option.getD_some, (insert?_eq_some.1 hi).2]

theorem upsert_of_has {t : Table key} {r s : ρ} (hs : s ∈ t.rows) (hk : key s = key r) :
    t.upsert r = t.put r := by
  rw [upsert, insert?_eq_none.2 ⟨s, hs, hk⟩, Option.getD_none]

theorem mem_upsert_self (t : Table key) (r : ρ) : r ∈ (t.upsert r).rows := by
  by_cases h : ∃ s ∈ t.rows, key s = key r
  · obtain ⟨s, hs, hk⟩ := h
    rw [upsert_of_has hs hk]
    exact mem_put_self hs hk
  · have hfresh : ∀ s ∈ t.rows, key s ≠ key r := fun s hs hk => h ⟨s, hs, hk⟩
    rw [upsert_rows_fresh hfresh]
    exact List.mem_append_right _ (List.mem_singleton_self r)

theorem has_mapRows (t : Table key) (f : ρ → ρ) (hf : ∀ r, key (f r) = key r) (k : κ) :
    (t.mapRows f hf).has k = t.has k := by
  simp only [has, mapRows_rows, List.any_map, Function.comp_def, hf]

theorem has_put (t : Table key) (r : ρ) (k : κ) : (t.put r).has k = t.has k := has_mapRows ..

theorem has_upsert (t : Table key) (r : ρ) {k : κ} (h : t.has k = true) :
    (t.upsert r).has k = true := by
  unfold upsert
  cases hi : t.insert? r with
  | none => rwa [Option.getD_none, has_put]
  | some u =>
    obtain ⟨s, hs, hk⟩ := has_iff.1 h
    refine has_iff.2 ⟨s, ?_, hk⟩
    rw [Option.getD_some, (insert?_eq_some.1 hi).2]
    exact List.mem_append_left _ hs

/-- Which keys are taken depends on the keys alone. -/
theorem has_congr {t u : Table key} (h : t.rows.map key = u.rows.map key) (k : κ) :
    t.has k = u.has k := by
  have hkeys : ∀ t : Table key, t.has k = (t.rows.map key).any fun k' => k' = k := by
    intro t
    rw [has, List.any_map]
    rfl
  rw [hkeys, hkeys, h]

theorem has_insert? {t u : Table key} {r : ρ} (h : t.insert? r = some u) (k : κ) :
    u.has k = (t.has k || decide (key r = k)) := by
  simp [has, (insert?_eq_some.1 h).2]

/-- Inserting a row and overwriting it is one `upsert`. -/
theorem put_insert? {t u : Table key} {r s : ρ} (h : t.insert? r = some u)
    (hk : key s = key r) : u.put s = t.upsert s := by
  obtain ⟨hfresh, _⟩ := insert?_eq_some.1 h
  apply ext
  rw [insert?_put_rows h hk, upsert_rows_fresh fun a ha => hk ▸ hfresh a ha]

/-- Putting a row that is already there changes nothing. -/
theorem put_of_mem {t : Table key} {r : ρ} (h : r ∈ t.rows) : t.put r = t := by
  apply ext
  rw [put_rows]
  refine (List.map_congr_left fun s hs => ?_).trans (List.map_id _)
  split
  · rename_i hk
    exact t.eq_of_key_eq h hs hk.symm
  · rfl

end Table
