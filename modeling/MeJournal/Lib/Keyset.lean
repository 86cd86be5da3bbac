import MeJournal.Lib.Runs
import Mathlib.Data.List.Nodup
import Mathlib.Data.List.Sort
import Mathlib.Order.OrderDual

/-!
# Keyset pagination

Rows are listed in the order of a key, a page at a time; the next page holds rows whose key comes
after the last key of the page before.  Each page is fetched from the rows as they are then.

* `select`, `page` — one query, and the page it makes with a look-ahead of one row.
* `Traversal`, `fetch` — the pages so far and where the next one starts.
* `fetch_inv` — whatever changed since the last page: pages are short, and keys increase strictly
  across all of them.
* `fetch_tracked` — a row that every page's rows list under one key is visited exactly once.
* `iterate_fetch_visited`, `iterate_fetch_done` — on unchanged rows the pages concatenate to
  the whole selection, after boundedly many fetches.
* `select_toDual` — the opposite order lists the reverse.
* `Client`, `Serves` — a client that follows the cursors of a listing function while the store
  changes; `client_run`, `client_tracked` and `client_still` are the results above for its runs.
-/

namespace Keyset

variable {ρ κ : Type*} [LinearOrder κ] (key : ρ → κ) (p : ρ → Bool)

/-- `WHERE p AND cursor < key ORDER BY key`. -/
def select (cursor : Option κ) (rows : List ρ) : List ρ :=
  (rows.filter fun r => p r && cursor.all fun c => c < key r).insertionSort
    fun r s => key r ≤ key s

/-- The page, and the key of its last row when the look-ahead found one more. -/
def page (limit : Nat) (cursor : Option κ) (rows : List ρ) : List ρ × Option κ :=
  let found := (select key p cursor rows).take (limit + 1)
  if limit < found.length then (found.take limit, found[limit - 1]?.map key) else (found, none)

/-- Where the next page starts, `none` when there is no next page; the pages so far. -/
structure Traversal (ρ κ : Type*) where
  next : Option (Option κ)
  pages : List (List ρ)

def start : Traversal ρ κ := ⟨some none, []⟩

def Traversal.visited (t : Traversal ρ κ) : List ρ := t.pages.flatten

/-- The next page, from the rows as they are now. -/
def fetch (limit : Nat) (t : Traversal ρ κ) (rows : List ρ) : Traversal ρ κ :=
  match t.next with
  | none => t
  | some cursor =>
    let found := page key p limit cursor rows
    ⟨found.2.map some, t.pages ++ [found.1]⟩

variable {key p}

/-! ## One query -/

/-- Sorting by two spellings of one order. -/
theorem insertionSort_congr {r s : ρ → ρ → Prop} [DecidableRel r] [DecidableRel s]
    (h : ∀ a b, r a b ↔ s a b) (l : List ρ) : l.insertionSort r = l.insertionSort s := by
  have heq : r = s := funext fun a => funext fun b => propext (h a b)
  subst heq
  congr 1

theorem mem_select {cursor : Option κ} {rows : List ρ} {r : ρ} :
    r ∈ select key p cursor rows ↔ r ∈ rows ∧ p r = true ∧ ∀ c ∈ cursor, c < key r := by
  simp [select, List.mem_insertionSort, Option.all_eq_true]

/-- Distinct keys are selected in strictly increasing order. -/
theorem select_increasing {rows : List ρ} (hkeys : (rows.map key).Nodup) (cursor : Option κ) :
    (select key p cursor rows).Pairwise fun r s => key r < key s := by
  have hsorted : (select key p cursor rows).Pairwise fun r s => key r ≤ key s :=
    List.pairwise_insertionSort _ _
  have hne : (select key p cursor rows).Pairwise fun r s => key r ≠ key s := by
    have hfilter : ((rows.filter fun r => p r && cursor.all fun c => c < key r).map key).Nodup :=
      hkeys.sublist (List.filter_sublist.map key)
    have hperm := (List.perm_insertionSort (fun r s => key r ≤ key s)
      (rows.filter fun r => p r && cursor.all fun c => c < key r)).map key
    exact List.pairwise_map.1 (hperm.nodup_iff.2 hfilter)
  exact (hsorted.and hne).imp fun h => lt_of_le_of_ne h.1 h.2

/-- Lists of the same rows in strictly increasing order are equal. -/
theorem eq_of_increasing {l m : List ρ} (hl : l.Pairwise fun r s => key r < key s)
    (hm : m.Pairwise fun r s => key r < key s) (h : ∀ r, r ∈ l ↔ r ∈ m) : l = m := by
  have hnodup : ∀ {l : List ρ}, l.Pairwise (fun r s => key r < key s) → l.Nodup :=
    fun hl => hl.imp fun hlt heq => (heq ▸ hlt).false
  have hperm : l.Perm m := (List.perm_ext_iff_of_nodup (hnodup hl) (hnodup hm)).2 h
  refine hperm.eq_of_pairwise ?_ hl hm
  intro r s _ _ hrs hsr
  exact absurd (hrs.trans hsr) (lt_irrefl _)

/-- What comes after a row of the selection is the selection from its key on. -/
theorem select_after {rows : List ρ} (hkeys : (rows.map key).Nodup) {cursor : Option κ}
    {before rest : List ρ} {r : ρ} (h : select key p cursor rows = before ++ r :: rest) :
    select key p (some (key r)) rows = rest := by
  have hinc := select_increasing (p := p) hkeys cursor
  rw [h, List.pairwise_append, List.pairwise_cons] at hinc
  obtain ⟨_, ⟨hrest, hsorted⟩, hbefore⟩ := hinc
  refine eq_of_increasing (select_increasing hkeys _) hsorted fun s => ?_
  have hmem : ∀ t, t ∈ before ++ r :: rest ↔ t ∈ rows ∧ p t = true ∧ ∀ c ∈ cursor, c < key t :=
    fun t => by rw [← h, mem_select]
  have hr := (hmem r).1 (by simp)
  rw [mem_select]
  constructor
  · rintro ⟨hs, hps, hafter⟩
    have hlt : key r < key s := hafter (key r) rfl
    have hs : s ∈ before ++ r :: rest :=
      (hmem s).2 ⟨hs, hps, fun c hc => (hr.2.2 c hc).trans hlt⟩
    rcases List.mem_append.1 hs with hs | hs
    · exact absurd (hlt.trans (hbefore s hs r (by simp))) (lt_irrefl _)
    · rcases List.mem_cons.1 hs with rfl | hs
      · exact absurd hlt (lt_irrefl _)
      · exact hs
  · intro hs
    obtain ⟨hrow, hps, _⟩ := (hmem s).1 (by simp [hs])
    refine ⟨hrow, hps, fun c hc => ?_⟩
    cases hc
    exact hrest s hs

/-- **A page splits the selection**: either it is all of it, or the next cursor selects exactly
what the page left. -/
theorem page_split {rows : List ρ} (hkeys : (rows.map key).Nodup) {limit : Nat}
    (hlimit : 1 ≤ limit) (cursor : Option κ) :
    ((page key p limit cursor rows).2 = none ∧
      (page key p limit cursor rows).1 = select key p cursor rows ∧
      (select key p cursor rows).length ≤ limit) ∨
    ∃ before r, (page key p limit cursor rows) = (before ++ [r], some (key r)) ∧
      before.length + 1 = limit ∧
      select key p cursor rows = before ++ r :: select key p (some (key r)) rows := by
  unfold page
  simp only [List.length_take]
  split
  · rename_i hmore
    right
    generalize hsel : select key p cursor rows = found at *
    have hlt : limit - 1 < found.length := by omega
    have hsplit : found = found.take (limit - 1) ++ found[limit - 1] :: found.drop limit := by
      have hdrop := List.drop_eq_getElem_cons hlt
      rw [Nat.sub_add_cancel hlimit] at hdrop
      rw [← hdrop, List.take_append_drop]
    have hpage :
        (found.take (limit + 1)).take limit = found.take (limit - 1) ++ [found[limit - 1]] := by
      rw [List.take_take, Nat.min_eq_left (Nat.le_succ limit), List.take_append_getElem hlt,
        Nat.sub_add_cancel hlimit]
    have hlast : (found.take (limit + 1))[limit - 1]? = some found[limit - 1] := by
      rw [List.getElem?_take_of_lt (by omega), List.getElem?_eq_getElem hlt]
    refine ⟨found.take (limit - 1), found[limit - 1], ?_, ?_, ?_⟩
    · rw [hpage, hlast]
      rfl
    · rw [List.length_take]
      omega
    · rw [select_after hkeys (hsel.trans hsplit)]
      exact hsplit
  · rename_i hall
    left
    have hlen : (select key p cursor rows).length ≤ limit := by omega
    exact ⟨rfl, List.take_of_length_le (by omega), hlen⟩

/-! ## Every page -/

/-- What holds of the pages fetched so far, whatever the rows were. -/
structure Inv (key : ρ → κ) (limit : Nat) (t : Traversal ρ κ) : Prop where
  short : ∀ pg ∈ t.pages, pg.length ≤ limit
  increasing : t.visited.Pairwise fun r s => key r < key s
  begin : t.next = some none → t.visited = []
  behind : ∀ c, t.next = some (some c) → ∀ r ∈ t.visited, key r ≤ c

theorem inv_start (limit : Nat) : Inv key limit (start : Traversal ρ κ) where
  short := by simp [start]
  increasing := List.Pairwise.nil
  begin := fun _ => rfl
  behind := by simp [start]

/-- Rows after the cursor come after the rows visited. -/
theorem Inv.visited_append {limit : Nat} {t : Traversal ρ κ} (h : Inv key limit t)
    {cursor : Option κ} (hnext : t.next = some cursor) {pg : List ρ}
    (hpg : pg.Pairwise fun r s => key r < key s) (hafter : ∀ r ∈ pg, ∀ c ∈ cursor, c < key r) :
    (t.visited ++ pg).Pairwise fun r s => key r < key s := by
  refine List.pairwise_append.2 ⟨h.increasing, hpg, fun r hr s hs => ?_⟩
  cases cursor with
  | none =>
    rw [h.begin hnext] at hr
    cases hr
  | some c => exact lt_of_le_of_lt (h.behind c hnext r hr) (hafter s hs c rfl)

/-- **One fetch**, from any rows with distinct keys. -/
theorem fetch_inv {limit : Nat} (hlimit : 1 ≤ limit) {t : Traversal ρ κ} (h : Inv key limit t)
    {rows : List ρ} (hkeys : (rows.map key).Nodup) : Inv key limit (fetch key p limit t rows) := by
  unfold fetch
  split
  · exact h
  rename_i cursor hnext
  have hinc := select_increasing (p := p) hkeys cursor
  have hafter : ∀ r ∈ select key p cursor rows, ∀ c ∈ cursor, c < key r :=
    fun r hr => (mem_select.1 hr).2.2
  rcases page_split (p := p) hkeys hlimit cursor with
    ⟨hdone, hall, hlen⟩ | ⟨before, r, hpage, hlen, hsel⟩
  · simp only [hdone, hall]
    refine ⟨?_, ?_, nofun, nofun⟩
    · rw [List.forall_mem_append, List.forall_mem_singleton]
      exact ⟨h.short, hlen⟩
    · simpa [Traversal.visited] using h.visited_append hnext hinc hafter
  · simp only [hpage]
    rw [hsel] at hinc hafter
    have hbeg : (before ++ [r]).Sublist (before ++ r :: select key p (some (key r)) rows) := by
      simp
    have hvisited := h.visited_append hnext (hinc.sublist hbeg)
      (fun s hs => hafter s (hbeg.subset hs))
    refine ⟨?_, ?_, nofun, ?_⟩
    · rw [List.forall_mem_append, List.forall_mem_singleton]
      exact ⟨h.short, by simp [hlen]⟩
    · simpa [Traversal.visited] using hvisited
    · intro c hc s hs
      cases hc
      have hs : s ∈ t.visited ++ (before ++ [r]) := by simpa [Traversal.visited] using hs
      rw [← List.append_assoc, List.pairwise_append] at hvisited
      rw [← List.append_assoc] at hs
      rcases List.mem_append.1 hs with hs | hs
      · exact (hvisited.2.2 s hs r (by simp)).le
      · rw [List.mem_singleton.1 hs]

/-! ## One row -/

/-- The key is still to come. -/
def Traversal.ahead (t : Traversal ρ κ) (k : κ) : Bool :=
  t.next.any fun cursor => cursor.all fun c => c < k

/-- The rows that `q` picks were visited once if their key was passed, else not at all. -/
def Tracked (q : ρ → Bool) (k : κ) (t : Traversal ρ κ) : Prop :=
  t.visited.countP q = if t.ahead k then 0 else 1

/-- The rows list one row that `q` picks, under the key `k`. -/
structure Lists (key : ρ → κ) (p q : ρ → Bool) (k : κ) (rows : List ρ) : Prop where
  listed : ∃ r ∈ rows, p r = true ∧ q r = true
  keyed : ∀ r ∈ rows, q r = true → key r = k

theorem tracked_start (q : ρ → Bool) (k : κ) : Tracked q k (start : Traversal ρ κ) := rfl

theorem countP_select {rows : List ρ} (hkeys : (rows.map key).Nodup) {q : ρ → Bool} {k : κ}
    (h : Lists key p q k rows) (cursor : Option κ) :
    (select key p cursor rows).countP q = if cursor.all (fun c => c < k) then 1 else 0 := by
  obtain ⟨r, hr, hpr, hqr⟩ := h.listed
  have hunique : ∀ s ∈ rows, q s = true → s = r := fun s hs hqs =>
    List.inj_on_of_nodup_map hkeys hs hr ((h.keyed s hs hqs).trans (h.keyed r hr hqr).symm)
  split
  · rename_i hafter
    have hmem : r ∈ select key p cursor rows := by
      refine mem_select.2 ⟨hr, hpr, fun c hc => ?_⟩
      have hc := (Option.all_eq_true _ _).1 hafter c hc
      rw [h.keyed r hr hqr]
      simpa using hc
    have hinc := select_increasing (p := p) hkeys cursor
    have hrows : ∀ s ∈ select key p cursor rows, s ∈ rows := fun s hs => (mem_select.1 hs).1
    obtain ⟨before, rest, hsplit⟩ := List.append_of_mem hmem
    rw [hsplit] at hinc hrows ⊢
    rw [List.pairwise_append, List.pairwise_cons] at hinc
    have hbefore : before.countP q = 0 := by
      refine List.countP_eq_zero.2 fun s hs hqs => ?_
      have hlt := hinc.2.2 s hs r (by simp)
      rw [hunique s (hrows s (by simp [hs])) hqs] at hlt
      exact lt_irrefl _ hlt
    have hrest : rest.countP q = 0 := by
      refine List.countP_eq_zero.2 fun s hs hqs => ?_
      have hlt := hinc.2.1.1 s hs
      rw [hunique s (hrows s (by simp [hs])) hqs] at hlt
      exact lt_irrefl _ hlt
    rw [List.countP_append, List.countP_cons_of_pos hqr, hbefore, hrest]
  · rename_i hpassed
    refine List.countP_eq_zero.2 fun s hs hqs => hpassed ?_
    obtain ⟨hs, _, hafter⟩ := mem_select.1 hs
    refine (Option.all_eq_true _ _).2 fun c hc => ?_
    have hlt := hafter c hc
    rw [h.keyed s hs hqs] at hlt
    simpa using hlt

/-- **One fetch** from rows that list the row under its key. -/
theorem fetch_tracked {limit : Nat} (hlimit : 1 ≤ limit) {q : ρ → Bool} {k : κ}
    {t : Traversal ρ κ} (h : Tracked q k t) {rows : List ρ} (hkeys : (rows.map key).Nodup)
    (hrows : Lists key p q k rows) : Tracked q k (fetch key p limit t rows) := by
  unfold fetch
  split
  · exact h
  rename_i cursor hnext
  have hahead : t.ahead k = cursor.all fun c => c < k := by
    rw [Traversal.ahead, hnext, Option.any_some]
  have hcount := countP_select hkeys hrows cursor
  unfold Tracked at h ⊢
  rw [hahead] at h
  rcases page_split (p := p) hkeys hlimit cursor with ⟨hdone, hall, _⟩ | ⟨before, r, hpage, _, hsel⟩
  · simp only [hdone, hall, Traversal.visited, Traversal.ahead, List.flatten_append,
      List.flatten_singleton, List.countP_append, Option.map_none, Option.any_none] at h ⊢
    rw [h, hcount]
    split <;> rfl
  · have hrest := countP_select hkeys hrows (some (key r))
    rw [hsel, List.countP_append, List.countP_cons] at hcount
    simp only [hpage, Traversal.visited, Traversal.ahead, List.flatten_append,
      List.flatten_singleton, List.countP_append, List.countP_cons, List.countP_nil,
      Option.map_some, Option.any_some] at h ⊢
    -- what is visited before, on this page and after it adds up to one
    have htotal : (t.pages.flatten.countP q) + (before.countP q +
        ((select key p (some (key r)) rows).countP q + if q r = true then 1 else 0)) = 1 := by
      rw [h, hcount]
      split <;> rfl
    split at hrest
    · rename_i hlater
      rw [if_pos hlater]
      omega
    · rename_i hpassed
      rw [if_neg hpassed]
      omega

/-! ## Unchanged rows -/

/-- What the cursor still selects. -/
def Traversal.remaining (key : ρ → κ) (p : ρ → Bool) (t : Traversal ρ κ) (rows : List ρ) : List ρ :=
  t.next.elim [] fun cursor => select key p cursor rows

/-- A fetch moves rows from the remaining ones to the visited ones, at least one unless it is the
last. -/
theorem fetch_visited_remaining {rows : List ρ} (hkeys : (rows.map key).Nodup) {limit : Nat}
    (hlimit : 1 ≤ limit) (t : Traversal ρ κ) :
    let t' := fetch key p limit t rows
    t'.visited ++ t'.remaining key p rows = t.visited ++ t.remaining key p rows ∧
      (t'.next = none ∨ (t'.remaining key p rows).length < (t.remaining key p rows).length) := by
  unfold fetch
  split
  · rename_i hnext
    exact ⟨rfl, Or.inl hnext⟩
  rename_i cursor hnext
  rcases page_split (p := p) hkeys hlimit cursor with ⟨hdone, hall, _⟩ | ⟨before, r, hpage, _, hsel⟩
  · simp [hdone, hall, Traversal.visited, Traversal.remaining, hnext]
  · have hremaining : t.remaining key p rows = before ++ r :: select key p (some (key r)) rows := by
      rw [Traversal.remaining, hnext]
      exact hsel
    refine ⟨?_, Or.inr ?_⟩
    · rw [hremaining]
      simp [hpage, Traversal.visited, Traversal.remaining]
    · rw [hremaining]
      simp only [hpage, Traversal.remaining, Option.map_some, Option.elim_some, List.length_append,
        List.length_cons]
      omega

theorem iterate_fetch_visited {rows : List ρ} (hkeys : (rows.map key).Nodup) {limit : Nat}
    (hlimit : 1 ≤ limit) (n : Nat) (t : Traversal ρ κ) :
    ((fun t => fetch key p limit t rows)^[n] t).visited ++
        ((fun t => fetch key p limit t rows)^[n] t).remaining key p rows =
      t.visited ++ t.remaining key p rows := by
  induction n generalizing t with
  | zero => rfl
  | succ n ih =>
    rw [Function.iterate_succ_apply, ih]
    exact (fetch_visited_remaining hkeys hlimit t).1

/-- **Unchanged rows are traversed to the end.** -/
theorem iterate_fetch_done {rows : List ρ} (hkeys : (rows.map key).Nodup) {limit : Nat}
    (hlimit : 1 ≤ limit) (n : Nat) (t : Traversal ρ κ)
    (hn : (t.remaining key p rows).length < n) :
    ((fun t => fetch key p limit t rows)^[n] t).next = none := by
  induction n generalizing t with
  | zero => omega
  | succ n ih =>
    rw [Function.iterate_succ_apply]
    rcases (fetch_visited_remaining (p := p) hkeys hlimit t).2 with hdone | hless
    · generalize fetch key p limit t rows = t' at hdone
      clear ih hn
      induction n with
      | zero => exact hdone
      | succ n ih =>
        rw [Function.iterate_succ_apply]
        have hstay : fetch key p limit t' rows = t' := by rw [fetch, hdone]
        rw [hstay]
        exact ih
    · exact ih _ (by omega)

/-- Selecting in the opposite order. -/
theorem select_toDual {rows : List ρ} (hkeys : (rows.map key).Nodup) :
    select (fun r => OrderDual.toDual (key r)) p none rows = (select key p none rows).reverse := by
  have hdual : (rows.map fun r => OrderDual.toDual (key r)).Nodup := hkeys
  refine eq_of_increasing (select_increasing hdual none) ?_ fun r => ?_
  · rw [List.pairwise_reverse]
    exact select_increasing hkeys none
  · rw [List.mem_reverse, mem_select, mem_select]
    simp

/-! ## A client of a listing function -/

section Client

variable {σ γ ε ω : Type*}

/-- A client that sends back the cursors it was given. -/
structure Client (σ ρ γ ε : Type*) where
  store : σ
  /-- The cursor of the next call; `none` after the last page. -/
  next : Option (Option γ)
  pages : List (List ρ)
  raised : List ε

inductive ClientEvent (ω : Type*) where
  | fetch
  | change (e : ω)

def ClientEvent.isFetch : ClientEvent ω → Bool
  | .fetch => true
  | .change _ => false

/-- A change of the store meets `A`. -/
def ClientEvent.Allows (A : ω → Prop) : ClientEvent ω → Prop
  | .fetch => True
  | .change e => A e

def clientStep (list : σ → Option γ → Except ε (List ρ × Option γ)) (change : σ → ω → σ)
    (s : Client σ ρ γ ε) : ClientEvent ω → Client σ ρ γ ε
  | .change e => { s with store := change s.store e }
  | .fetch =>
    match s.next with
    | none => s
    | some cursor =>
      match list s.store cursor with
      | .ok (rows, next) => { s with next := next.map some, pages := s.pages ++ [rows] }
      | .error e => { s with next := none, raised := s.raised ++ [e] }

/-- Before the first call. -/
def clientStart (s : σ) : Client σ ρ γ ε := ⟨s, some none, [], []⟩

/-- On the stores of `I`, and for cursors made from keys of `G`, the function serves pages. -/
structure Serves (list : σ → Option γ → Except ε (List ρ × Option γ)) (rows : σ → List ρ)
    (key : ρ → κ) (p : ρ → Bool) (limit : Nat) (text : κ → γ) (I : σ → Prop) (G : κ → Prop) :
    Prop where
  positive : 1 ≤ limit
  distinct : ∀ s, I s → ((rows s).map key).Nodup
  good : ∀ s, I s → ∀ r ∈ rows s, p r = true → G (key r)
  served : ∀ s, I s → ∀ cursor : Option κ, (∀ c ∈ cursor, G c) →
    list s (cursor.map text) =
      .ok ((page key p limit cursor (rows s)).1, (page key p limit cursor (rows s)).2.map text)

/-- A store that holds the rows in one of its parts. -/
theorem Serves.comap {σ' : Type*} {list : σ → Option γ → Except ε (List ρ × Option γ)}
    {rows : σ → List ρ} {limit : Nat} {text : κ → γ} {I : σ → Prop} {G : κ → Prop}
    (h : Serves list rows key p limit text I G) (f : σ' → σ) :
    Serves (fun s => list (f s)) (fun s => rows (f s)) key p limit text (fun s => I (f s)) G where
  positive := h.positive
  distinct s := h.distinct (f s)
  good s := h.good (f s)
  served s := h.served (f s)

/-- The client shows the traversal `t`. -/
structure Shows (text : κ → γ) (G : κ → Prop) (s : Client σ ρ γ ε) (t : Traversal ρ κ) :
    Prop where
  next : s.next = t.next.map fun cursor => cursor.map text
  pages : s.pages = t.pages
  raised : s.raised = []
  good : ∀ c, t.next = some (some c) → G c

variable {list : σ → Option γ → Except ε (List ρ × Option γ)} {change : σ → ω → σ}
  {rows : σ → List ρ} {limit : Nat} {text : κ → γ} {I : σ → Prop} {G : κ → Prop} {A : ω → Prop}

omit [LinearOrder κ] in
theorem shows_start (s : σ) : Shows text G (clientStart s : Client σ ρ γ ε) start :=
  ⟨rfl, rfl, rfl, nofun⟩

theorem clientStep_fetch_store (s : Client σ ρ γ ε) :
    (clientStep list change s .fetch).store = s.store := by
  simp only [clientStep]
  split
  · rfl
  · split <;> rfl

/-- A call shows one fetch. -/
theorem shows_fetch (h : Serves list rows key p limit text I G) {s : Client σ ρ γ ε}
    {t : Traversal ρ κ} (hs : Shows text G s t) (hI : I s.store) :
    Shows text G (clientStep list change s .fetch) (fetch key p limit t (rows s.store)) := by
  obtain ⟨hnext, hpages, hraised, hgood⟩ := hs
  unfold clientStep fetch
  cases ht : t.next with
  | none =>
    rw [ht] at hnext
    simp only [hnext, Option.map_none]
    exact ⟨by rw [hnext, ht], hpages, hraised, by simp [ht]⟩
  | some cursor =>
    rw [ht] at hnext
    have hcursor : ∀ c ∈ cursor, G c := by
      rintro c rfl
      exact hgood c ht
    simp only [hnext, Option.map_some, h.served s.store hI cursor hcursor]
    refine ⟨?_, by rw [hpages], hraised, fun c hc => ?_⟩
    · simp only [Option.map_map]
      rfl
    · rcases page_split (p := p) (h.distinct s.store hI) h.positive cursor with
        ⟨hdone, _, _⟩ | ⟨before, r, hpage, _, hsel⟩
      · simp [hdone] at hc
      · simp only [hpage, Option.map_some, Option.some.injEq] at hc
        subst hc
        have hr := mem_select.1 (hsel ▸ List.mem_append_right before List.mem_cons_self)
        exact h.good s.store hI r hr.1 hr.2.1

omit [LinearOrder κ] in
theorem shows_change {s : Client σ ρ γ ε} {t : Traversal ρ κ} (hs : Shows text G s t) (e : ω) :
    Shows text G (clientStep list change s (.change e)) t where
  next := hs.next
  pages := hs.pages
  raised := hs.raised
  good := hs.good

theorem clientStep_store (hchange : ∀ s e, I s → A e → I (change s e)) {s : Client σ ρ γ ε}
    (hI : I s.store) {e : ClientEvent ω} (he : e.Allows A) :
    I (clientStep list change s e).store := by
  cases e with
  | fetch =>
    rw [clientStep_fetch_store]
    exact hI
  | change e => exact hchange s.store e hI he

/-- **Every run of the client.**  No call raises, every page is within the limit, and the keys
increase strictly across all pages. -/
theorem client_run (h : Serves list rows key p limit text I G)
    (hchange : ∀ s e, I s → A e → I (change s e)) {s₀ : σ} (hI : I s₀)
    {es : List (ClientEvent ω)} (hes : ∀ e ∈ es, e.Allows A) :
    let s := Runs.run (clientStep list change) (clientStart s₀) es
    s.raised = [] ∧ (∀ pg ∈ s.pages, pg.length ≤ limit) ∧
      s.pages.flatten.Pairwise fun r s => key r < key s := by
  intro s
  have hstep : ∀ s e, (I s.store ∧ ∃ t, Shows text G s t ∧ Inv key limit t) → e.Allows A →
      I (clientStep list change s e).store ∧
        ∃ t, Shows text G (clientStep list change s e) t ∧ Inv key limit t := by
    rintro s e ⟨hI, t, hs, hinv⟩ he
    refine ⟨clientStep_store hchange hI he, ?_⟩
    cases e with
    | fetch =>
      exact ⟨_, shows_fetch h hs hI, fetch_inv h.positive hinv (h.distinct s.store hI)⟩
    | change e => exact ⟨t, shows_change hs e, hinv⟩
  have hevents : ∀ q ∈ Runs.steps (clientStep list change) (clientStart s₀) es, q.2.Allows A :=
    fun q hq => hes q.2 (Runs.snd_mem hq)
  obtain ⟨_, t, hs, hinv⟩ := Runs.inv_states_of_steps (C := fun _ e => e.Allows A) hstep
    ⟨hI, _, shows_start s₀, inv_start limit⟩ hevents s (Runs.run_mem_states _ _ es)
  rw [hs.pages]
  exact ⟨hs.raised, hinv.short, hinv.increasing⟩

/-- **A row that stays.**  What every call up to the last finds listed under one key was returned
exactly once when the last page has come. -/
theorem client_tracked (h : Serves list rows key p limit text I G)
    (hchange : ∀ s e, I s → A e → I (change s e)) {s₀ : σ} (hI : I s₀)
    {es : List (ClientEvent ω)} (hes : ∀ e ∈ es, e.Allows A) {q : ρ → Bool} {k : κ}
    (hlisted : ∀ st ∈ Runs.steps (clientStep list change) (clientStart s₀) es,
      st.2.isFetch = true → st.1.next ≠ none → Lists key p q k (rows st.1.store))
    (hdone : (Runs.run (clientStep list change) (clientStart s₀) es).next = none) :
    (Runs.run (clientStep list change) (clientStart s₀) es).pages.flatten.countP q = 1 := by
  have hstep : ∀ s e, (I s.store ∧ ∃ t, Shows text G s t ∧ Tracked q k t) →
      (e.Allows A ∧ (e.isFetch = true → s.next ≠ none → Lists key p q k (rows s.store))) →
      I (clientStep list change s e).store ∧
        ∃ t, Shows text G (clientStep list change s e) t ∧ Tracked q k t := by
    rintro s e ⟨hI, t, hs, htracked⟩ ⟨he, hlisted⟩
    refine ⟨clientStep_store hchange hI he, ?_⟩
    cases e with
    | fetch =>
      by_cases hnone : s.next = none
      · have hstay : clientStep list change s .fetch = s := by simp only [clientStep, hnone]
        rw [hstay]
        exact ⟨t, hs, htracked⟩
      · exact ⟨_, shows_fetch h hs hI,
          fetch_tracked h.positive htracked (h.distinct s.store hI) (hlisted rfl hnone)⟩
    | change e => exact ⟨t, shows_change hs e, htracked⟩
  obtain ⟨_, t, hs, htracked⟩ := Runs.inv_states_of_steps
    (C := fun s e => e.Allows A ∧
      (e.isFetch = true → s.next ≠ none → Lists key p q k (rows s.store))) hstep
    ⟨hI, _, shows_start s₀, tracked_start q k⟩
    (fun st hst => ⟨hes st.2 (Runs.snd_mem hst), hlisted st hst⟩) _ (Runs.run_mem_states _ _ es)
  have hnext : t.next = none := by
    have hmap := hs.next
    rw [hdone] at hmap
    exact Option.map_eq_none_iff.1 hmap.symm
  rw [hs.pages]
  simpa [Tracked, Traversal.visited, Traversal.ahead, hnext] using htracked

/-- Calls alone leave the store as it is, and traverse it. -/
theorem shows_fetches (h : Serves list rows key p limit text I G) {es : List (ClientEvent ω)}
    (hes : ∀ e ∈ es, e.isFetch = true) {s : Client σ ρ γ ε} {t : Traversal ρ κ}
    (hs : Shows text G s t) (hI : I s.store) :
    Shows text G (Runs.run (clientStep list change) s es)
      ((fun t => fetch key p limit t (rows s.store))^[es.length] t) := by
  induction es generalizing s t with
  | nil => exact hs
  | cons e es ih =>
    rw [List.forall_mem_cons] at hes
    obtain ⟨hfetch, hes⟩ := hes
    cases e with
    | change => cases hfetch
    | fetch =>
      have hstore : (clientStep list change s .fetch).store = s.store := clientStep_fetch_store s
      have hrest := ih hes (shows_fetch h hs hI) (by rw [hstore]; exact hI)
      rw [hstore] at hrest
      exact hrest

/-- **When nothing else runs**, the pages are the whole selection, after boundedly many calls. -/
theorem client_still (h : Serves list rows key p limit text I G) {s₀ : σ} (hI : I s₀)
    {es : List (ClientEvent ω)} (hes : ∀ e ∈ es, e.isFetch = true) :
    let s := Runs.run (clientStep list change) (clientStart s₀) es
    ((rows s₀).length < es.length → s.next = none) ∧
      (s.next = none → s.pages.flatten = select key p none (rows s₀)) := by
  intro s
  have hs : Shows text G s ((fun t => fetch key p limit t (rows s₀))^[es.length] start) :=
    shows_fetches h hes (shows_start s₀) hI
  have hkeys := h.distinct s₀ hI
  constructor
  · intro hlen
    have hsmall : ((start : Traversal ρ κ).remaining key p (rows s₀)).length < es.length := by
      have hle := List.length_filter_le (fun r => p r && (none : Option κ).all fun c => c < key r)
        (rows s₀)
      simp only [Traversal.remaining, start, Option.elim_some, select, List.length_insertionSort]
      omega
    rw [hs.next, iterate_fetch_done hkeys h.positive es.length _ hsmall]
    rfl
  · intro hnext
    have hdone := hs.next
    rw [hnext] at hdone
    have hdone := Option.map_eq_none_iff.1 hdone.symm
    have hall := iterate_fetch_visited (p := p) hkeys h.positive es.length start
    rw [Traversal.remaining, hdone, Option.elim_none, List.append_nil] at hall
    rw [hs.pages]
    exact hall

end Client

end Keyset
