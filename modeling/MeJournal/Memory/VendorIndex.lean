import MeJournal.Memory.LocalWrites
import MeJournal.Memory.RemoteMirror
import MeJournal.Memory.Supermemory

/-!
# The service and its adapter over an unreliable vendor

The vendor keeps documents under ids that it never uses twice.  A request to it is answered, or
refused before it has an effect, or takes effect and its answer is lost; the run decides which, and
with what exception.

* `vendorSdk`, `vendorClient` — the vendor's index behind the SDK and the adapter.
* `IndexInv` — live rows have their documents, no two rows share a document, and the ids in the
  table were issued.  `indexInv_vendorStep` keeps it over one request, whatever gets lost.
-/

namespace MeJournal

namespace Convergence

/-! ## The vendor -/

/-- What happens to the next request to the vendor. -/
inductive Delivery where
  | answered
  /-- It fails before it has an effect. -/
  | refused (e : SdkException)
  /-- It takes effect, and the answer is lost. -/
  | lost (e : SdkException)

structure Index where
  docs : String → Option Doc
  used : List String
  next : Delivery

/-- What the vendor decides: the ids of new documents, and searches. -/
structure Vendor where
  pick : List String → String
  pick_new : ∀ used, pick used ∉ used
  search : Index → SearchCall → Except SdkException (List SdkHit)

/-- The SDK's exception for a document that does not exist. -/
def notFoundError : SdkException where
  exc :=
    { cls := "NotFoundError"
      bases := ["APIStatusError", "APIError", "SupermemoryError", "Exception"]
      message := [] }
  statusCode := 404

/-- The answer that would be sent and the index it would leave, as they are delivered. -/
def deliver {α : Type} (b : Index) (answer : Except SdkException α × Index) :
    Except SdkException α × Index :=
  match b.next with
  | .answered => answer
  | .refused e => (.error e, b)
  | .lost e => (.error e, answer.2)

def vendorSdk (v : Vendor) : Sdk Index where
  add b _ content _ metadata :=
    deliver b (.ok ⟨v.pick b.used, "queued"⟩,
      { b with
        docs := setDoc b.docs (v.pick b.used) (some ⟨content, metadata⟩)
        used := v.pick b.used :: b.used })
  update b docId content metadata :=
    deliver b (match b.docs docId with
      | none => (.error notFoundError, b)
      | some doc =>
        (.ok (), { b with
          docs := setDoc b.docs docId (some ⟨content.getD doc.content, metadata⟩) }))
  delete b docId :=
    deliver b (match b.docs docId with
      | none => (.error notFoundError, b)
      | some _ => (.ok (), { b with docs := setDoc b.docs docId none }))
  search b call := deliver b (v.search b call, b)

/-- The adapter over the vendor. -/
def vendorClient (v : Vendor) : MemoryClient Index :=
  (supermemoryClient (vendorSdk v)).toMemoryClient

/-! ## Events -/

/-- One request, and what happens to the call it may make. -/
structure VendorEvent where
  env : Env
  req : Request
  delivery : Delivery

def delivering (w : World Index) (delivery : Delivery) : World Index :=
  { w with remote := { w.remote with next := delivery } }

def vendorStep (pf : Platform) (v : Vendor) (w : World Index) (e : VendorEvent) : World Index :=
  handle pf (vendorClient v) e.env (delivering w e.delivery) e.req

/-! ## What a call does to the index -/

/-- A push of `row` that left `row'` and `b'`: it may have created a document under a new id, or
written the row's own. -/
structure Pushed (row row' : Memory) (b b' : Index) : Prop where
  used : ∀ d ∈ b.used, d ∈ b'.used
  externalId : row'.externalId = row.externalId ∨
    row.externalId = none ∧ ∃ d, row'.externalId = some d ∧ d ∉ b.used ∧ d ∈ b'.used ∧
      b'.docs d ≠ none
  others : ∀ d ∈ b.used, row.externalId ≠ some d → b'.docs d = b.docs d
  kept : ∀ d ∈ b.used, b.docs d ≠ none → b'.docs d ≠ none

section Calls

variable (v : Vendor) (env : Env)

theorem add_pushed (row : Memory) (w : World Index) (hext : row.externalId = none) :
    Pushed row (sendToSupermemoryAdd (vendorClient v) env row w).1 w.remote
      (sendToSupermemoryAdd (vendorClient v) env row w).2.remote := by
  have hnew : ∀ d ∈ w.remote.used, d ≠ v.pick w.remote.used :=
    fun d hd heq => v.pick_new _ (heq ▸ hd)
  simp only [sendToSupermemoryAdd, vendorClient, supermemoryClient, vendorSdk, deliver]
  cases w.remote.next with
  | answered =>
    refine ⟨fun d hd => List.mem_cons_of_mem _ hd, Or.inr ⟨hext, _, rfl, v.pick_new _, ?_, ?_⟩,
      fun d hd _ => setDoc_ne _ _ (hnew d hd), fun d hd hdoc => ?_⟩
    · exact List.mem_cons_self
    · dsimp only
      rw [setDoc_self]
      exact Option.some_ne_none _
    · dsimp only
      rwa [setDoc_ne _ _ (hnew d hd)]
  | refused e => exact ⟨fun _ hd => hd, Or.inl rfl, fun _ _ _ => rfl, fun _ _ hdoc => hdoc⟩
  | lost e =>
    refine ⟨fun d hd => List.mem_cons_of_mem _ hd, Or.inl rfl,
      fun d hd _ => setDoc_ne _ _ (hnew d hd), fun d hd hdoc => ?_⟩
    dsimp only
    rwa [setDoc_ne _ _ (hnew d hd)]

theorem patch_pushed {row : Memory} {docId : String} (changed : Bool) (w : World Index)
    (hext : row.externalId = some docId) :
    Pushed row (sendToSupermemoryPatch (vendorClient v) env row docId changed w).1 w.remote
      (sendToSupermemoryPatch (vendorClient v) env row docId changed w).2.remote := by
  have hother : ∀ d, row.externalId ≠ some d → d ≠ docId :=
    fun d hd heq => hd (heq ▸ hext)
  -- the document after an update that takes effect
  have hset : ∀ doc : Doc, ∀ d ∈ w.remote.used, w.remote.docs d ≠ none →
      setDoc w.remote.docs docId (some doc) d ≠ none := by
    intro doc d _ hdoc
    by_cases hd : d = docId
    · rw [hd, setDoc_self]
      exact Option.some_ne_none _
    · rwa [setDoc_ne _ _ hd]
  simp only [sendToSupermemoryPatch, vendorClient, supermemoryClient, vendorSdk, deliver]
  cases w.remote.next with
  | refused e => exact ⟨fun _ hd => hd, Or.inl rfl, fun _ _ _ => rfl, fun _ _ hdoc => hdoc⟩
  | answered =>
    cases w.remote.docs docId with
    | none => exact ⟨fun _ hd => hd, Or.inl rfl, fun _ _ _ => rfl, fun _ _ hdoc => hdoc⟩
    | some doc =>
      exact ⟨fun _ hd => hd, Or.inl rfl, fun d _ hd => setDoc_ne _ _ (hother d hd), hset _⟩
  | lost e =>
    cases w.remote.docs docId with
    | none => exact ⟨fun _ hd => hd, Or.inl rfl, fun _ _ _ => rfl, fun _ _ hdoc => hdoc⟩
    | some doc =>
      exact ⟨fun _ hd => hd, Or.inl rfl, fun d _ hd => setDoc_ne _ _ (hother d hd), hset _⟩

theorem pushRow_pushed (row : Memory) (changed : Bool) (w : World Index) :
    Pushed row (pushRow (vendorClient v) env row changed w).1 w.remote
      (pushRow (vendorClient v) env row changed w).2.remote := by
  unfold pushRow
  cases hext : row.externalId with
  | none => exact add_pushed v env row w hext
  | some docId => exact patch_pushed v env changed w hext

/-- A `delete` touches its own document only. -/
structure Removed (docId : String) (b b' : Index) : Prop where
  used : b'.used = b.used
  others : ∀ d, d ≠ docId → b'.docs d = b.docs d

/-- `except NotFoundError` changes the answer only. -/
theorem supermemoryClient_delete_snd {R : Type} (sdk : Sdk R) (r : R) (docId : String) :
    ((supermemoryClient sdk).delete r docId).2 = (sdk.delete r docId).2 := by
  simp only [supermemoryClient]
  cases (sdk.delete r docId).1 with
  | ok u => rfl
  | error e =>
    dsimp only
    split
    · rfl
    · rfl

theorem delete_removed (b : Index) (docId : String) :
    Removed docId b ((vendorClient v).delete b docId).2 := by
  have hindex : ((vendorClient v).delete b docId).2 = ((vendorSdk v).delete b docId).2 :=
    supermemoryClient_delete_snd _ _ _
  rw [hindex]
  simp only [vendorSdk, deliver]
  cases b.next with
  | refused e => exact ⟨rfl, fun _ _ => rfl⟩
  | answered =>
    cases b.docs docId with
    | none => exact ⟨rfl, fun _ _ => rfl⟩
    | some doc => exact ⟨rfl, fun d hd => setDoc_ne _ _ hd⟩
  | lost e =>
    cases b.docs docId with
    | none => exact ⟨rfl, fun _ _ => rfl⟩
    | some doc => exact ⟨rfl, fun d hd => setDoc_ne _ _ hd⟩

end Calls

/-! ## The invariant -/

structure IndexInv (w : World Index) : Prop where
  sync : SyncInv w
  used : ∀ m ∈ w.memories.rows, ∀ d, m.externalId = some d → d ∈ w.remote.used
  apart : ∀ m ∈ w.memories.rows, ∀ n ∈ w.memories.rows, ∀ d, m.externalId = some d →
    n.externalId = some d → m.id = n.id
  stored : ∀ m ∈ w.memories.rows, m.live → ∀ d, m.externalId = some d → w.remote.docs d ≠ none

theorem indexInv_initial (b : Index) : IndexInv (initialWorld b) := by
  have hnone : ∀ m, m ∉ (initialWorld b).memories.rows := fun _ => List.not_mem_nil
  exact ⟨syncInv_initial b, fun m hm => absurd hm (hnone m), fun m hm => absurd hm (hnone m),
    fun m hm => absurd hm (hnone m)⟩

section Step

variable {w w' : World Index} {new : Memory}

/-- One row became `new`, or was inserted as `new`. -/
structure Changed (w w' : World Index) (new : Memory) : Prop where
  rows : ∀ m ∈ w'.memories.rows, m = new ∨ (m ∈ w.memories.rows ∧ m.id ≠ new.id)
  used : ∀ d ∈ w.remote.used, d ∈ w'.remote.used
  docs : ∀ m ∈ w.memories.rows, m.id ≠ new.id → m.live → ∀ d, m.externalId = some d →
    w'.remote.docs d ≠ none
  newUsed : ∀ d, new.externalId = some d → d ∈ w'.remote.used
  newApart : ∀ d, new.externalId = some d → ∀ n ∈ w.memories.rows, n.id ≠ new.id →
    n.externalId ≠ some d
  newStored : new.live → ∀ d, new.externalId = some d → w'.remote.docs d ≠ none

theorem Changed.inv (hc : Changed w w' new) (h : IndexInv w) (hsync : SyncInv w') :
    IndexInv w' where
  sync := hsync
  used m hm d hd := by
    rcases hc.rows m hm with rfl | ⟨hm, -⟩
    · exact hc.newUsed d hd
    · exact hc.used d (h.used m hm d hd)
  apart m hm n hn d hmd hnd := by
    rcases hc.rows m hm with rfl | ⟨hm, hmne⟩ <;> rcases hc.rows n hn with rfl | ⟨hn, hnne⟩
    · rfl
    · exact absurd hnd (hc.newApart d hmd n hn hnne)
    · exact absurd hmd (hc.newApart d hnd m hm hmne)
    · exact h.apart m hm n hn d hmd hnd
  stored m hm hlive d hd := by
    rcases hc.rows m hm with rfl | ⟨hm, hne⟩
    · exact hc.newStored hlive d hd
    · exact hc.docs m hm hne hlive d hd

/-- A push of a row that has no document yet, or the document of its stored version. -/
theorem changed_push {row : Memory} (h : IndexInv w) (hid : new.id = row.id)
    (hlive : new.live → row.live) (hpushed : Pushed row new w.remote w'.remote)
    (hstored : row.externalId = none ∨ ∃ old ∈ w.memories.rows, old.id = row.id ∧
      old.externalId = row.externalId ∧ (row.live → old.live))
    (hrows : ∀ m ∈ w'.memories.rows, m = new ∨ (m ∈ w.memories.rows ∧ m.id ≠ new.id)) :
    Changed w w' new := by
  -- the document that the row had before
  have hbefore : ∀ d, row.externalId = some d → d ∈ w.remote.used ∧
      (∀ n ∈ w.memories.rows, n.id ≠ new.id → n.externalId ≠ some d) ∧
      (row.live → w.remote.docs d ≠ none) := by
    intro d hd
    rcases hstored with hnone | ⟨old, hold, holdId, hext, holdLive⟩
    · rw [hnone] at hd
      cases hd
    · rw [← hext] at hd
      refine ⟨h.used old hold d hd, fun n hn hne hnd => ?_,
        fun hrow => h.stored old hold (holdLive hrow) d hd⟩
      exact hne ((h.apart n hn old hold d hnd hd).trans (holdId.trans hid.symm))
  refine ⟨hrows, hpushed.used, fun m hm hne hmlive d hd => ?_, fun d hd => ?_, fun d hd => ?_,
    fun hnew d hd => ?_⟩
  · exact hpushed.kept d (h.used m hm d hd) (h.stored m hm hmlive d hd)
  all_goals rcases hpushed.externalId with hsame | ⟨hnone, d', hd', hfresh, hused, hdoc⟩
  · exact hpushed.used d (hbefore d (hsame ▸ hd)).1
  · cases hd'.symm.trans hd
    exact hused
  · exact (hbefore d (hsame ▸ hd)).2.1
  · cases hd'.symm.trans hd
    exact fun n hn _ hnd => hfresh (h.used n hn _ hnd)
  · obtain ⟨hused, -, hrow⟩ := hbefore d (hsame ▸ hd)
    exact hpushed.kept d hused (hrow (hlive hnew))
  · cases hd'.symm.trans hd
    exact hdoc

/-- A row that is no longer live, and whose own document at most was removed. -/
theorem changed_remove {row : Memory} {docId : String} (h : IndexInv w)
    (hrow : row ∈ w.memories.rows) (hid : new.id = row.id) (hext : row.externalId = some docId)
    (hnew : new.externalId = row.externalId) (hdead : ¬ new.live)
    (hremoved : Removed docId w.remote w'.remote)
    (hrows : ∀ m ∈ w'.memories.rows, m = new ∨ (m ∈ w.memories.rows ∧ m.id ≠ new.id)) :
    Changed w w' new where
  rows := hrows
  used d hd := by rwa [hremoved.used]
  docs m hm hne hmlive d hd := by
    rw [hremoved.others d fun heq => hne ?_]
    · exact h.stored m hm hmlive d hd
    · subst heq
      exact (h.apart m hm row hrow d hd hext).trans hid.symm
  newUsed d hd := by
    rw [hremoved.used]
    exact h.used row hrow d (hnew ▸ hd)
  newApart d hd n hn hne hnd :=
    hne ((h.apart n hn row hrow d hnd (hnew ▸ hd)).trans hid.symm)
  newStored hlive := absurd hlive hdead

end Step

/-- **One request keeps the invariant**, whether its call is answered, refused or lost. -/
theorem indexInv_vendorStep (pf : Platform) (v : Vendor) {w : World Index} (h : IndexInv w)
    (e : VendorEvent) : IndexInv (vendorStep pf v w e) := by
  have hv : IndexInv (delivering w e.delivery) := ⟨h.sync, h.used, h.apart, h.stored⟩
  unfold vendorStep
  generalize delivering w e.delivery = w at hv ⊢
  have hsync := syncInv_handle pf (vendorClient v) e.env hv.sync e.req
  have heff := request_effect pf (vendorClient v) e.env w e.req
  generalize handle pf (vendorClient v) e.env w e.req = w' at hsync heff ⊢
  generalize e.req = req at heff
  cases heff with
  | unchanged => exact hv
  | @created userId args text memories hcheck hhash hinsert =>
    have hrows := insert_rows_change hinsert
      (sendToSupermemoryAdd_id (vendorClient v) e.env (newRow pf e.env userId args text) w)
    have hpushed := add_pushed v e.env (newRow pf e.env userId args text) w rfl
    exact Changed.inv (changed_push hv (sendToSupermemoryAdd_id ..) (fun _ => rfl) hpushed
      (Or.inl rfl) hrows.1) hv hsync
  | @updated args row row' changed memories hrow hlive hpatch hflush =>
    obtain ⟨hid', -, hext'⟩ := applyPatch_ids hpatch
    have hid : (pushRow (vendorClient v) e.env row' changed w).1.id = row.id :=
      (pushRow_id ..).trans hid'
    have hput : memories.put (pushRow (vendorClient v) e.env row' changed w).1 =
        w.memories.put (pushRow (vendorClient v) e.env row' changed w).1 := by
      rw [flush_ok hflush, Table.put_put (pushRow_id ..)]
    have hrows := put_rows_change hrow hid hput
    exact Changed.inv (changed_push hv (pushRow_id ..)
      (fun hnew => (pushRow_deletedAt ..).symm.trans hnew) (pushRow_pushed v e.env row' changed w)
      (Or.inr ⟨row, hrow, hid'.symm, hext'.symm, fun _ => hlive⟩) hrows.1) hv hsync
  | @deletedLocally row hrow hlive hext =>
    have hnone : ∀ d, row.externalId ≠ some d := fun d hd => by rw [hext] at hd; cases hd
    have hrows := put_rows_change (p := ({ row with deletedAt := some e.env.now }, w)) hrow rfl rfl
    exact Changed.inv ⟨hrows.1, fun _ hd => hd,
      fun m hm _ hmlive d hd => hv.stored m hm hmlive d hd,
      fun d hd => absurd hd (hnone d), fun d hd => absurd hd (hnone d),
      fun _ d hd => absurd hd (hnone d)⟩ hv hsync
  | @deleted row docId hrow hlive hext =>
    have hdead : ¬ (sendDelete (vendorClient v) { row with deletedAt := some e.env.now } docId
        w).1.live := by simp
    have hid : (sendDelete (vendorClient v) { row with deletedAt := some e.env.now } docId
        w).1.id = row.id := sendDelete_id ..
    have hrows := put_rows_change hrow hid rfl
    have hsame : (sendDelete (vendorClient v) { row with deletedAt := some e.env.now } docId
        w).1.externalId = row.externalId := by
      simp only [sendDelete]
      split
      · rfl
      · rfl
    exact Changed.inv (changed_remove hv hrow hid hext hsame hdead
      (delete_removed v w.remote docId) hrows.1) hv hsync
  | @synced row hrow hstatus =>
    have hrows := put_rows_change hrow (pushRow_id (vendorClient v) e.env row true w) rfl
    exact Changed.inv (changed_push hv (pushRow_id ..)
      (fun hnew => (pushRow_deletedAt ..).symm.trans hnew) (pushRow_pushed v e.env row true w)
      (Or.inr ⟨row, hrow, rfl, rfl, id⟩) hrows.1) hv hsync
  | @settled row hrow hstatus hext =>
    rw [(hv.sync row hrow).unsent hext] at hstatus
    cases hstatus
  | @retried row docId hrow hstatus hext =>
    have hdead : ¬ (retryDelete (vendorClient v) row docId w).1.live := by
      rw [Memory.live, retryDelete_deletedAt]
      exact (hv.sync row hrow).pending hstatus
    have hrows := put_rows_change hrow (retryDelete_id (vendorClient v) row docId w) rfl
    have hsame : (retryDelete (vendorClient v) row docId w).1.externalId = row.externalId := by
      simp only [retryDelete]
      split
      · rfl
      · rfl
    exact Changed.inv (changed_remove hv hrow (retryDelete_id ..) hext hsame hdead
      (delete_removed v w.remote docId) hrows.1) hv hsync

/-- **Every reachable state keeps it.** -/
theorem indexInv_run (pf : Platform) (v : Vendor) (b : Index) (es : List VendorEvent) :
    IndexInv (Runs.run (vendorStep pf v) (initialWorld b) es) :=
  have hstep : ∀ w e, IndexInv w → IndexInv (vendorStep pf v w e) :=
    fun _ e h => indexInv_vendorStep pf v h e
  Runs.inv_run hstep (indexInv_initial b) es

end Convergence

end MeJournal
