import MeJournal.Memory.Hydration

/-!
# What a search owes to the order of rows

Two queries of `search_memories` leave an order open: the full-text search sorts by rank alone, and
the rows that hits name are selected without an `ORDER BY`.  PostgreSQL may return such rows in
another order when other users' rows differ, so each database has an order of its own here.

* `exists_order` — an order that one database may take, the other may take too.
* `fallback_same_iff`, `lookup_same_iff` — when the order plays no part in a search.
* `own_rows_only` — what a request of a user shows, on two databases that hold the same rows of the
  user, and when it is one and the same.
-/

namespace MeJournal

open Hydration

variable {R : Type}

/-! ## Orders -/

/-- Rows that can come back as `l` do. -/
def RowOrder.exactly (l : List Memory) : RowOrder where
  order rows := if l.Perm rows then l else rows
  order_perm rows := by
    split
    · assumption
    · exact List.Perm.refl rows

theorem RowOrder.exactly_order {l rows : List Memory} (h : l.Perm rows) :
    (RowOrder.exactly l).order rows = l := if_pos h

/-- **The rows in any order of the one database** are in an order of the other. -/
theorem exists_order (o : RowOrder) {rows rows' : List Memory} (h : rows.Perm rows') :
    ∃ o' : RowOrder, o'.order rows' = o.order rows :=
  ⟨RowOrder.exactly (o.order rows), RowOrder.exactly_order ((o.order_perm rows).trans h)⟩

/-! ## The condition -/

/-- No row of a tie is among the first that the full-text search finds. -/
def FallbackDecided (sp : SearchPlatform) (memories : MemoryTable) (userId : UUID) (q : Text)
    (limit : Nat) : Prop :=
  '\x00' ∈ q ∨ Ranking.Decided (fun m => sp.rank m.text q) limit (foundRows sp memories userId q)

/-- Each hit is for one live row of the user at most. -/
def HitsDecided (memories : MemoryTable) (userId : UUID) (smHits : List SearchHit) : Prop :=
  (∃ h ∈ smHits, '\x00' ∈ h.docId.toList) ∨ ∀ h ∈ smHits, OneRow memories userId h.docId

/-- The order of rows plays no part in the request. -/
def OrderFree (sp : SearchPlatform) (client : SearchClient R) (userId : UUID) (w : World R) :
    OwnRequest → Prop
  | .search q limit =>
    match (client.search w.remote (searchCall userId q limit)).1 with
    | .error _ => FallbackDecided sp w.memories userId q (clampLimit limit)
    | .ok smHits => HitsDecided w.memories userId smHits
  | _ => True

section

variable {sp : SearchPlatform} {userId : UUID} {t u : MemoryTable}

/-! ## The full-text search -/

theorem foundRows_nodup (sp : SearchPlatform) (t : MemoryTable) (userId : UUID) (q : Text) :
    (foundRows sp t userId q).Nodup := t.rows_nodup.filter _

theorem searchLocalFallback_congr {o o' : RowOrder} {q : Text}
    (h : o.order (foundRows sp t userId q) = o'.order (foundRows sp u userId q)) (limit : Nat) :
    searchLocalFallback (sp.inOrder o) t userId q limit =
      searchLocalFallback (sp.inOrder o') u userId q limit := by
  have horder : (sp.inOrder o).order (foundRows (sp.inOrder o) t userId q) =
      (sp.inOrder o').order (foundRows (sp.inOrder o') u userId q) := h
  rw [searchLocalFallback, horder]
  rfl

theorem fallback_same_iff (h : SameOwn userId t u) (q : Text) (limit : Nat) :
    (∀ o o' : RowOrder, searchLocalFallback (sp.inOrder o) t userId q limit =
        searchLocalFallback (sp.inOrder o') u userId q limit) ↔
      FallbackDecided sp t userId q limit := by
  have hrows := foundRows_perm sp h q
  by_cases hnul : '\x00' ∈ q
  · have hrefused : ∀ (o : RowOrder) (t : MemoryTable),
        searchLocalFallback (sp.inOrder o) t userId q limit = .error (.raised nulDataError.exc) :=
      fun o t => if_pos (by simpa using hnul)
    exact iff_of_true (fun o o' => (hrefused o t).trans (hrefused o' u).symm) (Or.inl hnul)
  have hresult : ∀ (o : RowOrder) (t : MemoryTable),
      searchLocalFallback (sp.inOrder o) t userId q limit = .ok
        ⟨(Ranking.top (fun m => sp.rank m.text q) limit (o.order (foundRows sp t userId q))).map
          fun r => (r, none), .local⟩ :=
    fun o t => if_neg (by simpa using hnul)
  have hpair : Function.Injective fun r : Memory => (r, (none : Option PyFloat)) :=
    fun r r' hr => congrArg Prod.fst hr
  rw [FallbackDecided, or_iff_right hnul]
  constructor
  · intro hsame
    refine Ranking.decided_of_top (foundRows_nodup sp t userId q) fun l l' hl hl' => ?_
    have horders := hsame (RowOrder.exactly l) (RowOrder.exactly l')
    rw [hresult, hresult, RowOrder.exactly_order hl,
      RowOrder.exactly_order (hl'.trans hrows)] at horders
    simp only [Except.ok.injEq, SearchResult.mk.injEq, and_true] at horders
    exact hpair.list_map horders
  · intro hdecided o o'
    rw [hresult, hresult]
    have htop := Ranking.top_perm hdecided (o.order_perm _).symm
    have htop' := Ranking.top_perm hdecided (hrows.trans (o'.order_perm _).symm)
    rw [← htop, htop']

/-! ## The rows of the hits -/

theorem lookupHits_congr (sp : SearchPlatform) {o o' : RowOrder} {smHits : List SearchHit}
    (h : o.order (candidates t userId (smHits.map SearchHit.docId)) =
      o'.order (candidates u userId (smHits.map SearchHit.docId))) :
    lookupHits (sp.inOrder o) t userId smHits = lookupHits (sp.inOrder o') u userId smHits := by
  have horder : (sp.inOrder o).order (candidates t userId (smHits.map SearchHit.docId)) =
      (sp.inOrder o').order (candidates u userId (smHits.map SearchHit.docId)) := h
  simp only [lookupHits, horder]

/-- Two rows of one key: each is the one the hit gets if it comes last. -/
theorem oneRow_of_attachedRow {smHits : List SearchHit} (hown : SameOwn userId t u)
    {h : SearchHit} (hh : h ∈ smHits)
    (hsame : ∀ o o', attachedRow o t userId smHits h = attachedRow o' u userId smHits h) :
    OneRow t userId h.docId := by
  intro m m' hm hm' hkeyed hkeyed'
  have hlast := attachedRow_last hh hm hkeyed
  have hlast' := attachedRow_last hh ((mine_congr hown).1 hm') hkeyed'
  exact Option.some_inj.1 (hlast.symm.trans ((hsame (lastOrder m) (lastOrder m')).trans hlast'))

theorem lookup_same_iff (hown : SameOwn userId t u) (smHits : List SearchHit) :
    (∀ o o' : RowOrder, lookupHits (sp.inOrder o) t userId smHits =
        lookupHits (sp.inOrder o') u userId smHits) ↔ HitsDecided t userId smHits := by
  have hany : ((smHits.map SearchHit.docId).any fun d => d.toList.contains '\x00') = true ↔
      ∃ h ∈ smHits, '\x00' ∈ h.docId.toList := by simp
  simp only [lookupHits_eq, SearchPlatform.inOrder, HitsDecided, ← hany]
  split
  · rename_i hnul
    exact iff_of_true (fun _ _ => rfl) (Or.inl hnul)
  rename_i hnul
  rw [or_iff_right hnul]
  simp only [Except.ok.injEq, SearchResult.mk.injEq, and_true]
  constructor
  · intro hsame h hh
    refine oneRow_of_attachedRow hown hh fun o o' => ?_
    -- a hit that gets a row in one order gets one in the other
    have heq := eq_of_filterMap_eq (fun h hh hnone => ?_) (hsame o o') h hh
    · exact Option.map_injective (fun m m' hm => congrArg Prod.fst hm) heq
    · rw [Option.map_eq_none_iff] at hnone ⊢
      by_contra hsome
      obtain ⟨m, hm⟩ := Option.ne_none_iff_exists'.1 hsome
      obtain ⟨hmine, hkeyed⟩ := attachedRow_some hh hm
      rw [attachedRow_none hh hnone ((mine_congr hown).1 hmine)] at hkeyed
      cases hkeyed
  · intro hone o o'
    exact List.filterMap_congr fun h hh => by rw [attachedRow_congr hown hh (hone h hh) o o']

end

/-! ## Every request -/

section

variable (pf : Platform) (cp : CursorPlatform) (sp : SearchPlatform) (client : SearchClient R)
  (env : Env) {userId : UUID} {w w' : World R}

/-- A search does not write, so the order of rows is no part of what a request does. -/
theorem serve_effects_alike (req : OwnRequest) (h : w.Alike userId w') (o o' : RowOrder) :
    (serve pf cp (sp.inOrder o) client env userId req w).1.searches =
        (serve pf cp (sp.inOrder o') client env userId req w').1.searches ∧
      (serve pf cp (sp.inOrder o) client env userId req w).2.Alike userId
        (serve pf cp (sp.inOrder o') client env userId req w').2 := by
  cases req with
  | search q limit =>
    simp only [serve, searchMemories, h.remote]
    exact ⟨trivial, h.own, rfl, h.calls⟩
  | get | list | update | delete | sync =>
    exact And.imp_left (congrArg Served.searches) (serve_alike pf cp client env _ _ rfl h)

/-- A result in the one database is a result in the other. -/
theorem exists_serve_eq (req : OwnRequest) (h : w.Alike userId w') (o : RowOrder) :
    ∃ o' : RowOrder, (serve pf cp (sp.inOrder o') client env userId req w').1 =
      (serve pf cp (sp.inOrder o) client env userId req w).1 := by
  cases req with
  | search q limit =>
    simp only [serve, searchMemories, ← h.remote]
    cases (client.search w.remote (searchCall userId q limit)).1 with
    | error e =>
      obtain ⟨o', ho'⟩ := exists_order o (foundRows_perm sp h.own q)
      exact ⟨o', congrArg (fun r => Served.mk (r.map .found) _) (searchLocalFallback_congr ho' _)⟩
    | ok smHits =>
      obtain ⟨o', ho'⟩ := exists_order o (candidates_perm h.own (smHits.map SearchHit.docId))
      exact ⟨o', congrArg (fun r => Served.mk (r.map .found) _) (lookupHits_congr sp ho')⟩
  | get | list | update | delete | sync =>
    exact ⟨o, (serve_alike pf cp client env (sp.inOrder o) (sp.inOrder o) rfl h).1.symm⟩

theorem serve_same_iff (req : OwnRequest) (h : w.Alike userId w') :
    (∀ o o' : RowOrder, (serve pf cp (sp.inOrder o) client env userId req w).1 =
        (serve pf cp (sp.inOrder o') client env userId req w').1) ↔
      OrderFree sp client userId w req := by
  cases req with
  | search q limit =>
    have hserved : ∀ r r' : Except ServiceError SearchResult,
        (⟨r.map .found, [searchCall userId q limit]⟩ : Served) =
          ⟨r'.map .found, [searchCall userId q limit]⟩ ↔ r = r' := by
      intro r r'
      cases r <;> cases r' <;> simp [Except.map]
    simp only [serve, searchMemories, ← h.remote, hserved, OrderFree]
    cases (client.search w.remote (searchCall userId q limit)).1 with
    | error e => exact fallback_same_iff h.own q _
    | ok smHits => exact lookup_same_iff h.own smHits
  | get | list | update | delete | sync =>
    exact iff_of_true (fun o o' => (serve_alike pf cp client env _ _ rfl h).1) trivial

end

/-- A backend that answers no search. -/
def searchDown : SearchClient Backend where
  toMemoryClient := backend
  search b _ := (.error .transient, b)

def swamOf (userId newId : UUID) : MemoryEvent :=
  ⟨⟨0, 0, newId⟩,
    .create userId ⟨"swam".toList, sampleDate, "UTC".toList, none, none, none, none, none⟩⟩

/-- User 7 has two memories. -/
def twoRows : World Backend :=
  ⟨memoriesAfter [ranOf 7 1, swamOf 7 2], ⟨fun _ => none, .err .base⟩, []⟩

/-- The same two, after a memory of user 8. -/
def twoRowsBeside : World Backend :=
  ⟨memoriesAfter [ranOf 8 3, ranOf 7 1, swamOf 7 2], ⟨fun _ => none, .err .base⟩, []⟩

theorem twoRows_alike : twoRows.Alike 7 twoRowsBeside :=
  ⟨SameOwn.of_filter (by decide +kernel), rfl, rfl⟩

def backwards : RowOrder where
  order := List.reverse
  order_perm := List.reverse_perm

/-- A search with limit 1, in the rows' order of the database. -/
def askedOne (o : RowOrder) (w : World Backend) : Served :=
  (serve utcPlatform plainCursors (tableOrder.inOrder o) searchDown ⟨0, 0, 4⟩ 7
    (.search "ran swam".toList 1) w).1

end MeJournal
