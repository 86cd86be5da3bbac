import MeJournal.Lib.Dict
import MeJournal.Lib.Numbering

/-!
# Folding a sequence by key

Items come in one after another, each under a key; a dictionary holds for each key what its items
have been folded to so far.

* `itemsOf` — the items of one key, in their order.
* `group` — the dictionary; `group_append` — it may be built in parts.
* `group_rows` — an entry for each key, in the order of the first uses, folded from its own items.
* `group_perm` — how the items of different keys interleave decides only the order of the entries.
-/

namespace Grouping

open Numbering

variable {κ α β : Type*} [DecidableEq κ] (key : β → κ) (f : α → β → α) (start : α)

/-- The items of one key. -/
def itemsOf (xs : List β) (k : κ) : List β := xs.filter fun x => key x = k

/-- One more item. -/
def add (d : Dict κ α) (x : β) : Dict κ α :=
  d.set (key x) (f ((d.get? (key x)).getD start) x)

def group (xs : List β) : Dict κ α := xs.foldl (add key f start) Table.empty

theorem group_append (xs ys : List β) :
    group key f start (xs ++ ys) = ys.foldl (add key f start) (group key f start xs) :=
  List.foldl_append

variable {key}

/-! ## The items of a key -/

theorem itemsOf_concat_self (xs : List β) (x : β) :
    itemsOf key (xs ++ [x]) (key x) = itemsOf key xs (key x) ++ [x] := by
  simp [itemsOf]

theorem itemsOf_concat_of_ne (xs : List β) {x : β} {k : κ} (h : key x ≠ k) :
    itemsOf key (xs ++ [x]) k = itemsOf key xs k := by
  simp [itemsOf, h]

theorem itemsOf_eq_nil {xs : List β} {k : κ} : itemsOf key xs k = [] ↔ k ∉ xs.map key := by
  simp [itemsOf]

/-! ## The entries -/

variable {f start}

/-- **The entries**: one for each key, in the order of the first uses, folded from its own items. -/
theorem group_rows (xs : List β) :
    (group key f start xs).rows =
      (firsts (xs.map key)).map fun k => (k, (itemsOf key xs k).foldl f start) := by
  induction xs using List.reverseRecOn with
  | nil => rfl
  | append_singleton xs x ih =>
    rw [group_append, List.map_append, List.map_singleton]
    change ((group key f start xs).set (key x) _).rows = _
    by_cases hmem : key x ∈ xs.map key
    · -- the key has its place, and its entry is folded on
      have hentry : (group key f start xs).get? (key x) =
          some ((itemsOf key xs (key x)).foldl f start) := by
        rw [Dict.get?_eq_some, ih]
        exact List.mem_map.2 ⟨key x, mem_firsts.2 hmem, rfl⟩
      rw [Dict.set_rows_of_get? _ hentry, hentry, firsts_concat_of_mem hmem, ih, List.map_map]
      refine List.map_congr_left fun k _ => ?_
      by_cases hk : k = key x
      · subst hk
        simp [itemsOf_concat_self]
      · simp [hk, itemsOf_concat_of_ne xs (Ne.symm hk)]
    · have hentry : (group key f start xs).get? (key x) = none := by
        rw [Dict.get?_eq_none, ih]
        intro r hr hkey
        obtain ⟨k, hk, rfl⟩ := List.mem_map.1 hr
        exact hmem (hkey ▸ mem_firsts.1 hk)
      rw [Dict.set_rows_fresh _ hentry, hentry, firsts_concat_fresh hmem, ih, List.map_append]
      congr 1
      · refine List.map_congr_left fun k hk => ?_
        have hne : key x ≠ k := fun heq => hmem (heq ▸ mem_firsts.1 hk)
        rw [itemsOf_concat_of_ne xs hne]
      · simp [itemsOf_concat_self, itemsOf_eq_nil.2 hmem]

/-- **Interleaving**: two sequences with the same items under each key have the same entries. -/
theorem group_perm {xs ys : List β} (h : ∀ k, itemsOf key xs k = itemsOf key ys k) :
    (group key f start xs).rows.Perm (group key f start ys).rows := by
  have hkeys : (firsts (xs.map key)).Perm (firsts (ys.map key)) := by
    refine (List.perm_ext_iff_of_nodup (nodup_firsts _) (nodup_firsts _)).2 fun k => ?_
    rw [mem_firsts, mem_firsts, ← not_iff_not, ← itemsOf_eq_nil, ← itemsOf_eq_nil, h]
  have hentries : (fun k => (k, (itemsOf key xs k).foldl f start)) =
      fun k => (k, (itemsOf key ys k).foldl f start) := funext fun k => by rw [h]
  rw [group_rows, group_rows, hentries]
  exact hkeys.map _

end Grouping
