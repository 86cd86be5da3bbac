import MeJournal.Memory.Search

/-!
# The Supermemory adapter

`SupermemoryClient` of `app/services/memory_client.py`, over the calls of the vendor's SDK, which
are a parameter.  The optional arguments that the service never passes are left out.

* `translate` — `_translate`: the class of an SDK exception and its status code decide what the
  service sees.
* `supermemoryClient` — the adapter.  A document that is already gone counts as deleted.
-/

namespace MeJournal

variable {R : Type}

/-- An exception of the SDK; the status code is read of an `APIStatusError` only. -/
structure SdkException where
  exc : PyExc
  statusCode : Int
  deriving DecidableEq

/-- `_translate`. -/
def translate (e : SdkException) : MemoryClientError :=
  if e.exc.isinstance ["AuthenticationError", "PermissionDeniedError"] then .auth
  else if e.exc.isinstance ["NotFoundError"] then .notFound
  else if e.exc.isinstance ["RateLimitError"] then .rateLimit
  else if e.exc.isinstance ["APIStatusError"] ∧ 400 ≤ e.statusCode ∧ e.statusCode < 500 then
    .permanent
  else .transient

/-- One result of a search, as the SDK returns it. -/
structure SdkHit where
  documentId : Option String
  score : PyFloat

/-- `documents.add`, `documents.update`, `documents.delete` and `search.documents` of the SDK. -/
structure Sdk (R : Type) where
  add : R → String → Text → List String → Metadata → Except SdkException AddResult × R
  update : R → String → Option Text → Metadata → Except SdkException Unit × R
  delete : R → String → Except SdkException Unit × R
  search : R → SearchCall → Except SdkException (List SdkHit) × R

/-- The hit of a result that has a document id. -/
def SdkHit.hit? (r : SdkHit) : Option SearchHit :=
  (r.documentId.filter (· ≠ "")).map fun docId => ⟨docId, r.score⟩

/-- `SupermemoryClient`. -/
def supermemoryClient (sdk : Sdk R) : SearchClient R where
  add r customId content tags metadata :=
    let (response, r') := sdk.add r (String.ofList (uuidText customId)) content tags metadata
    (response.mapError translate, r')
  patch r docId content metadata :=
    let (response, r') := sdk.update r docId content metadata
    (response.mapError translate, r')
  delete r docId :=
    let (response, r') := sdk.delete r docId
    match response with
    | .ok () => (.ok (), r')
    | .error e =>
      -- `except NotFoundError`: already absent
      if e.exc.isinstance ["NotFoundError"] then (.ok (), r') else (.error (translate e), r')
  search r call :=
    let (response, r') := sdk.search r call
    ((response.map fun results => results.filterMap SdkHit.hit?).mapError translate, r')

end MeJournal
