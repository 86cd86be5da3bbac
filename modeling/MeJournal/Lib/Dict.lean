import MeJournal.Lib.Table

/-!
# Insertion-ordered dictionaries

A dictionary is a table of key–value pairs in the order in which the keys were first set;
setting a key that is present keeps its place.

* `get?`, `set`, `keys`.
* `get?_eq_some` — lookup is membership; `set_rows_fresh`, `set_rows_of_get?` — the two ways
  `set` acts on the pairs; `mem_set`, `get?_set`, `get?_set_of_ne` — what is there after it.
-/

/-- Pairs with distinct keys, oldest key first. -/
abbrev Dict (κ α : Type*) := Table (Prod.fst : κ × α → κ)

namespace Dict

variable {κ α : Type*}

def keys (d : Dict κ α) : List κ := d.rows.map Prod.fst

variable [DecidableEq κ]

def get? (d : Dict κ α) (k : κ) : Option α := (d.find k).map Prod.snd

def set (d : Dict κ α) (k : κ) (v : α) : Dict κ α := d.upsert (k, v)

theorem get?_eq_some {d : Dict κ α} {k : κ} {v : α} : d.get? k = some v ↔ (k, v) ∈ d.rows := by
  simp only [get?, Option.map_eq_some_iff, Table.find_eq_some]
  constructor
  · rintro ⟨⟨k', v'⟩, ⟨hmem, rfl⟩, rfl⟩
    exact hmem
  · intro hmem
    exact ⟨(k, v), ⟨hmem, rfl⟩, rfl⟩

theorem get?_eq_none {d : Dict κ α} {k : κ} : d.get? k = none ↔ ∀ r ∈ d.rows, r.1 ≠ k := by
  simp only [get?, Option.map_eq_none_iff, Table.find_eq_none]

theorem set_rows_fresh {d : Dict κ α} {k : κ} (v : α) (h : d.get? k = none) :
    (d.set k v).rows = d.rows ++ [(k, v)] :=
  Table.upsert_rows_fresh (get?_eq_none.1 h)

theorem set_rows_of_get? {d : Dict κ α} {k : κ} {u : α} (v : α) (h : d.get? k = some u) :
    (d.set k v).rows = d.rows.map fun r => if r.1 = k then (k, v) else r := by
  have hkey : Prod.fst (k, u) = Prod.fst (k, v) := rfl
  rw [set, Table.upsert_of_has (get?_eq_some.1 h) hkey, Table.put_rows]

/-- `set` adds no other pair. -/
theorem mem_set {d : Dict κ α} {k : κ} {v : α} {r : κ × α} (h : r ∈ (d.set k v).rows) :
    r = (k, v) ∨ r ∈ d.rows := by
  cases hget : d.get? k with
  | none =>
    rw [set_rows_fresh v hget, List.mem_append, List.mem_singleton] at h
    exact h.symm
  | some u =>
    rw [set_rows_of_get? v hget] at h
    obtain ⟨s, hs, rfl⟩ := List.mem_map.1 h
    split
    · exact Or.inl rfl
    · exact Or.inr hs

/-- Setting a key to the value it has changes nothing. -/
theorem set_of_get? {d : Dict κ α} {k : κ} {v : α} (h : d.get? k = some v) : d.set k v = d := by
  have hmem := get?_eq_some.1 h
  rw [set, Table.upsert_of_has hmem rfl, Table.put_of_mem hmem]

/-- The value set is there. -/
theorem get?_set (d : Dict κ α) (k : κ) (v : α) : (d.set k v).get? k = some v := by
  rw [get?_eq_some]
  cases h : d.get? k with
  | some w =>
    rw [set_rows_of_get? v h]
    exact List.mem_map.2 ⟨(k, w), get?_eq_some.1 h, if_pos rfl⟩
  | none =>
    rw [set_rows_fresh v h]
    simp

/-- The last value set wins. -/
theorem set_set (d : Dict κ α) (k : κ) (u v : α) : (d.set k u).set k v = d.set k v := by
  apply Table.ext
  have hset := get?_set d k u
  cases h : d.get? k with
  | some w =>
    rw [set_rows_of_get? v hset, set_rows_of_get? u h, set_rows_of_get? v h, List.map_map]
    refine List.map_congr_left fun r _ => ?_
    by_cases hr : r.1 = k <;> simp [hr]
  | none =>
    rw [set_rows_of_get? v hset, set_rows_fresh u h, set_rows_fresh v h, List.map_append]
    congr 1
    · refine (List.map_congr_left fun r hr => ?_).trans (List.map_id _)
      exact if_neg (get?_eq_none.1 h r hr)
    · simp

/-- The other keys keep their values. -/
theorem get?_set_of_ne (d : Dict κ α) {k k' : κ} (v : α) (hk : k' ≠ k) :
    (d.set k v).get? k' = d.get? k' := by
  rw [Option.ext_iff]
  intro w
  rw [get?_eq_some, get?_eq_some]
  cases h : d.get? k with
  | none =>
    rw [set_rows_fresh v h]
    simp [hk]
  | some u =>
    rw [set_rows_of_get? v h, List.mem_map]
    constructor
    · rintro ⟨r, hr, heq⟩
      split at heq
      · exact absurd (congrArg Prod.fst heq).symm hk
      · rwa [← heq]
    · intro hw
      exact ⟨(k', w), hw, if_neg hk⟩

end Dict
