import MeJournal.Isoformat
import MeJournal.Cursors
import MeJournal.Lib.Dict
import MeJournal.Lib.Ranking
import MeJournal.Memory.Service

/-!
# Reading one memory, and searching

`get_memory`, `search_memories` and `_search_local_fallback` of `app/services/memory.py`.  The
backend answers a search with document ids; the rows they name are looked up among the user's
own.  When the backend raises, PostgreSQL's full-text search answers instead.

* `getMemory_eq_ok` — exactly the live row of the user with the given id is returned.
* `byDocId_get?` — the dictionary of the candidate rows maps a document id only to a row it names.
* `searchMemories_owned` — every row a search returns is a live row of the user.
-/

namespace MeJournal

variable {R : Type}

/-! ## `get_memory` -/

/-- `get_memory`. -/
def getMemory (memories : MemoryTable) (userId memoryId : UUID) : Except ServiceError Memory :=
  match (findOwned memories userId memoryId).filter fun row => row.deletedAt.isNone with
  | none => .error (.notFound memoryId)
  | some row => .ok row

theorem getMemory_eq_ok {memories : MemoryTable} {userId memoryId : UUID} {row : Memory} :
    getMemory memories userId memoryId = .ok row ↔
      row ∈ memories.rows ∧ row.id = memoryId ∧ row.userId = userId ∧ row.live := by
  have hfound : (findOwned memories userId memoryId).filter (fun row => row.deletedAt.isNone) =
      some row ↔ row ∈ memories.rows ∧ row.id = memoryId ∧ row.userId = userId ∧ row.live := by
    simp [Option.filter_eq_some_iff, findOwned_eq_some, and_assoc]
  rw [← hfound, getMemory]
  split
  · rename_i hnone
    simp [hnone]
  · rename_i row' hsome
    simp [hsome]

/-! ## The search backend -/

/-- `SearchHit`. -/
structure SearchHit where
  docId : String
  similarity : PyFloat

/-- What `client.search` is called with. -/
structure SearchCall where
  q : Text
  containerTag : String
  limit : Nat
  deriving DecidableEq

/-- The whole protocol: a `MemoryClient` that can also be searched. -/
structure SearchClient (R : Type) extends MemoryClient R where
  search : R → SearchCall → Except MemoryClientError (List SearchHit) × R

/-- The order in which a database returns selected rows before any `ORDER BY`.  It may depend on
everything that the database holds. -/
structure RowOrder where
  order : List Memory → List Memory
  order_perm : ∀ rows, (order rows).Perm rows

/-- What PostgreSQL contributes to a search. -/
structure SearchPlatform extends RowOrder where
  /-- `to_tsvector('simple', text) @@ plainto_tsquery('simple', q)`. -/
  found : Text → Text → Bool
  /-- `ts_rank_cd` of the same two, in the units of `PyFloat`. -/
  rank : Text → Text → Int

/-- The same search in a database that returns rows in the order `o`. -/
def SearchPlatform.inOrder (sp : SearchPlatform) (o : RowOrder) : SearchPlatform :=
  { sp with toRowOrder := o }

inductive SearchSource where
  | supermemory
  | local
  deriving DecidableEq

/-- `SearchResult`. -/
structure SearchResult where
  hits : List (Memory × Option PyFloat)
  source : SearchSource
  deriving DecidableEq

/-! ## `search_memories` -/

/-- The rows that the full-text search finds, before their order. -/
def foundRows (sp : SearchPlatform) (memories : MemoryTable) (userId : UUID) (q : Text) :
    List Memory :=
  memories.rows.filter fun m => m.userId = userId && m.deletedAt.isNone && sp.found m.text q

/-- `_search_local_fallback`: `ORDER BY` the rank, which leaves the order of ties open. -/
def searchLocalFallback (sp : SearchPlatform) (memories : MemoryTable) (userId : UUID) (q : Text)
    (limit : Nat) : Except ServiceError SearchResult :=
  if q.contains '\x00' then .error (.raised nulDataError.exc)
  else
    let rows := Ranking.top (fun m => sp.rank m.text q) limit
      (sp.order (foundRows sp memories userId q))
    .ok ⟨rows.map fun r => (r, none), .local⟩

/-- The rows that the hits may name: by row id where a document id parses as one, or by
`external_id`. -/
def candidates (memories : MemoryTable) (userId : UUID) (docIds : List String) : List Memory :=
  let uuidDocIds := docIds.filterMap fun d => uuidOf d.toList
  memories.rows.filter fun m =>
    (uuidDocIds.contains m.id || m.externalId.any docIds.contains) && m.userId = userId &&
      m.deletedAt.isNone

/-- `str(row.id)`. -/
def Memory.idText (m : Memory) : String := String.ofList (uuidText m.id)

/-- One turn of the loop that fills `by_doc_id`. -/
def indexRow (byDoc : Dict String Memory) (r : Memory) : Dict String Memory :=
  let byDoc := byDoc.set r.idText r
  match r.externalId with
  | none => byDoc
  | some externalId => if externalId.isEmpty then byDoc else byDoc.set externalId r

def byDocId (rows : List Memory) : Dict String Memory := rows.foldl indexRow Table.empty

/-- The hits that name a row, with their similarities. -/
def hydrate (rows : List Memory) (smHits : List SearchHit) : List (Memory × Option PyFloat) :=
  smHits.filterMap fun h => ((byDocId rows).get? h.docId).map fun row => (row, some h.similarity)

/-- The backend's hits, looked up; the driver refuses a document id with a NUL character. -/
def lookupHits (sp : SearchPlatform) (memories : MemoryTable) (userId : UUID)
    (smHits : List SearchHit) : Except ServiceError SearchResult :=
  let docIds := smHits.map SearchHit.docId
  if smHits.isEmpty then .ok ⟨[], .supermemory⟩
  else if docIds.any fun d => d.toList.contains '\x00' then .error (.raised nulDataError.exc)
  else .ok ⟨hydrate (sp.order (candidates memories userId docIds)) smHits, .supermemory⟩

/-- The call `search_memories` makes. -/
def searchCall (userId : UUID) (q : Text) (limit : Int) : SearchCall :=
  ⟨q, containerTag userId, clampLimit limit⟩

/-- `search_memories`. -/
def searchMemories (sp : SearchPlatform) (client : SearchClient R) (userId : UUID) (q : Text)
    (limit : Int) (w : World R) : Except ServiceError SearchResult × World R :=
  let response := client.search w.remote (searchCall userId q limit)
  (match response.1 with
    | .error _ => searchLocalFallback sp w.memories userId q (clampLimit limit)
    | .ok smHits => lookupHits sp w.memories userId smHits,
    { w with remote := response.2 })

/-! ## What a search returns -/

/-- A document id names a row by the row's id or by its `external_id`. -/
def Memory.named (m : Memory) (docId : String) : Prop :=
  docId = m.idText ∨ m.externalId = some docId

theorem mem_indexRow {byDoc : Dict String Memory} {r : Memory} {p : String × Memory}
    (h : p ∈ (indexRow byDoc r).rows) : (p.2 = r ∧ r.named p.1) ∨ p ∈ byDoc.rows := by
  have hid : ∀ p ∈ (byDoc.set r.idText r).rows, (p.2 = r ∧ r.named p.1) ∨ p ∈ byDoc.rows := by
    intro p hp
    rcases Dict.mem_set hp with rfl | hp
    · exact Or.inl ⟨rfl, Or.inl rfl⟩
    · exact Or.inr hp
  simp only [indexRow] at h
  split at h
  · exact hid p h
  · rename_i externalId hext
    split at h
    · exact hid p h
    · rcases Dict.mem_set h with rfl | hp
      · exact Or.inl ⟨rfl, Or.inr hext⟩
      · exact hid p hp

theorem mem_foldl_indexRow {rows : List Memory} {byDoc : Dict String Memory} {p : String × Memory}
    (h : p ∈ (rows.foldl indexRow byDoc).rows) : (p.2 ∈ rows ∧ p.2.named p.1) ∨ p ∈ byDoc.rows := by
  induction rows generalizing byDoc with
  | nil => exact Or.inr h
  | cons r rows ih =>
    rcases ih h with ⟨hmem, hnamed⟩ | hp
    · exact Or.inl ⟨List.mem_cons_of_mem r hmem, hnamed⟩
    · rcases mem_indexRow hp with ⟨heq, hnamed⟩ | hp
      · rw [heq]
        exact Or.inl ⟨List.mem_cons_self, hnamed⟩
      · exact Or.inr hp

/-- Every row in the dictionary is a candidate that its document id names. -/
theorem byDocId_get? {rows : List Memory} {docId : String} {m : Memory}
    (h : (byDocId rows).get? docId = some m) : m ∈ rows ∧ m.named docId := by
  rcases mem_foldl_indexRow (Dict.get?_eq_some.1 h) with hfound | hempty
  · exact hfound
  · simp at hempty

theorem mem_candidates {memories : MemoryTable} {userId : UUID} {docIds : List String} {m : Memory}
    (h : m ∈ candidates memories userId docIds) :
    m ∈ memories.rows ∧ m.userId = userId ∧ m.live := by
  simp only [candidates, List.mem_filter, Bool.and_eq_true, decide_eq_true_eq] at h
  exact ⟨h.1, h.2.1.2, by simpa using h.2.2⟩

/-- **Every row that a search returns is a live row of the user**, whatever ids the backend
answers with. -/
theorem searchMemories_owned {sp : SearchPlatform} {client : SearchClient R} {userId : UUID}
    {q : Text} {limit : Int} {w : World R} {result : SearchResult}
    (h : (searchMemories sp client userId q limit w).1 = .ok result) :
    ∀ hit ∈ result.hits,
      hit.1 ∈ w.memories.rows ∧ hit.1.userId = userId ∧ hit.1.live := by
  intro hit hmem
  simp only [searchMemories] at h
  split at h
  · simp only [searchLocalFallback] at h
    split at h
    · cases h
    · obtain rfl := Except.ok.inj h
      obtain ⟨m, hm, rfl⟩ := List.mem_map.1 hmem
      have hselected := (sp.order_perm _).mem_iff.1 (Ranking.mem_top hm)
      simp only [foundRows, List.mem_filter, Bool.and_eq_true, decide_eq_true_eq] at hselected
      exact ⟨hselected.1, hselected.2.1.1, by simpa using hselected.2.1.2⟩
  · simp only [lookupHits] at h
    split at h
    · obtain rfl := Except.ok.inj h
      simp at hmem
    split at h
    · cases h
    · obtain rfl := Except.ok.inj h
      obtain ⟨hit', _, hfound⟩ := List.mem_filterMap.1 hmem
      obtain ⟨m, hget, rfl⟩ := Option.map_eq_some_iff.1 hfound
      exact mem_candidates ((sp.order_perm _).mem_iff.1 (byDocId_get? hget).1)

end MeJournal
