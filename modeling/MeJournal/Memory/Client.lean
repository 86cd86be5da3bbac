import MeJournal.Memory.Row

/-!
# The remote index behind the `MemoryClient` protocol

`app/services/memory_client.py`.  A client is any implementation over any remote state: each
call returns a value or raises a `MemoryClientError`, and leaves a new remote state.

`Backend` is the reading of the protocol as a map from document ids to documents: `add`
stores a new document under an id not in the map, `patch` overwrites the parts it is given
and fails on an absent document, `delete` removes, and a call that raises changes nothing.
The outcome of the next call is part of its state, so that any sequence of outcomes is a run.
-/

namespace MeJournal

/-- `MemoryClientError` and its subclasses. -/
inductive MemoryClientError where
  | base
  | auth
  | notFound
  | rateLimit
  | permanent
  | transient
  deriving DecidableEq

/-- `type(err).__name__`. -/
def MemoryClientError.name : MemoryClientError → String
  | .base => "MemoryClientError"
  | .auth => "MemoryClientAuthError"
  | .notFound => "MemoryClientNotFoundError"
  | .rateLimit => "MemoryClientRateLimitError"
  | .permanent => "MemoryClientPermanentError"
  | .transient => "MemoryClientTransientError"

/-- `AddResult`. -/
structure AddResult where
  docId : String
  status : String

/-- `MemoryClient`, over a remote state `R`; the parts of the protocol that the service never
passes (`entity_context`, the `container_tags` of `patch`) are left out. -/
structure MemoryClient (R : Type) where
  add : R → UUID → Text → List String → Metadata → Except MemoryClientError AddResult × R
  patch : R → String → Option Text → Metadata → Except MemoryClientError Unit × R
  delete : R → String → Except MemoryClientError Unit × R

/-- A call the service made, with the row it was made for (`patch` and `delete` themselves
carry only the document id). -/
inductive ClientCall where
  | add (memoryId : UUID) (content : Text) (containerTags : List String) (metadata : Metadata)
  | patch (memoryId : UUID) (docId : String) (content : Option Text) (metadata : Metadata)
  | delete (memoryId : UUID) (docId : String)
  deriving DecidableEq

def ClientCall.memoryId : ClientCall → UUID
  | .add m .. => m
  | .patch m .. => m
  | .delete m _ => m

/-- The calls that push a row's data to the remote index. -/
def ClientCall.pushes : ClientCall → Bool
  | .add .. => true
  | .patch .. => true
  | .delete .. => false

/-! ## The backend as a map of documents -/

structure Doc where
  content : Text
  metadata : Metadata
  deriving DecidableEq

/-- How a client call ends. -/
inductive Outcome where
  /-- Success; `fresh` is the id an `add` stores under. -/
  | ok (fresh : String)
  | err (e : MemoryClientError)
  deriving DecidableEq

structure Backend where
  docs : String → Option Doc
  next : Outcome

/-- The map with `d` set to `doc`. -/
def setDoc (docs : String → Option Doc) (d : String) (doc : Option Doc) : String → Option Doc :=
  fun d' => if d' = d then doc else docs d'

@[simp] theorem setDoc_self (docs : String → Option Doc) (d : String) (doc : Option Doc) :
    setDoc docs d doc d = doc := if_pos rfl

theorem setDoc_ne (docs : String → Option Doc) {d d' : String} (doc : Option Doc) (h : d' ≠ d) :
    setDoc docs d doc d' = docs d' := if_neg h

/-- The map backend.  An `add` whose offered id is taken fails, so that every success stores
under a fresh id. -/
def backend : MemoryClient Backend where
  add b _ content _ metadata :=
    match b.next with
    | .err e => (.error e, b)
    | .ok fresh =>
      if (b.docs fresh).isSome then (.error .transient, b)
      else
        (.ok ⟨fresh, "queued"⟩,
          { b with docs := setDoc b.docs fresh (some ⟨content, metadata⟩) })
  patch b docId content metadata :=
    match b.next with
    | .err e => (.error e, b)
    | .ok _ =>
      match b.docs docId with
      | none => (.error .notFound, b)
      | some doc =>
        (.ok (), { b with docs := setDoc b.docs docId (some ⟨content.getD doc.content, metadata⟩) })
  delete b docId :=
    match b.next with
    | .err e => (.error e, b)
    | .ok _ => (.ok (), { b with docs := setDoc b.docs docId none })

end MeJournal
