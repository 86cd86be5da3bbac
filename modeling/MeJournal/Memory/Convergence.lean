import MeJournal.Memory.RowHistory
import MeJournal.Memory.VendorIndex
import Mathlib.Algebra.Order.BigOperators.Group.List

/-!
# Syncing every row brings the index in line

`sync_memory` is the only retry of the service: there is no queue and no worker.  After any requests
to a vendor that refuses calls or loses answers, one sync of a row that the vendor answers settles
the row, in whatever order the rows are synced, and no later sync does anything to it.

* `Settled` — what such a sync makes of a row and its document.
* `sync_answered` — one sync that the vendor answers.
* `sync_converges` — every row that a pass of syncs covers is settled at its end, other rows and
  those that were synced stay with their documents, and a second pass makes no call.
-/

namespace MeJournal

namespace Convergence

/-- `m'` is what a sync makes of the row `m`: it has the local columns of `m` and is `synced`; the
document of an unsynced row has its data, that of a pending delete is gone, and a row that was
synced is left as it was, whatever its document holds. -/
structure Settled (docs : String → Option Doc) (m m' : Memory) : Prop where
  erase : m'.erase = m.erase
  status : m'.externalStatus = .synced
  unsynced : m.externalStatus = .unsynced →
    ∃ d, m'.externalId = some d ∧ docs d = some ⟨m.text, buildMetadata m⟩
  pending : m.externalStatus = .pendingDelete →
    ∃ d, m'.externalId = some d ∧ m.externalId = some d ∧ docs d = none
  synced : m.externalStatus = .synced → m' = m

theorem Settled.id {docs : String → Option Doc} {m m' : Memory} (h : Settled docs m m') :
    m'.id = m.id := by
  have herase := congrArg Memory.id h.erase
  exact herase

/-- A request of `sync_memory`. -/
structure SyncCall where
  env : Env
  userId : UUID
  memoryId : UUID

def SyncCall.event (c : SyncCall) (delivery : Delivery) : VendorEvent :=
  ⟨c.env, .sync c.userId c.memoryId, delivery⟩

/-- The sync is for the row. -/
def SyncCall.covers (c : SyncCall) (m : Memory) : Prop := c.userId = m.userId ∧ c.memoryId = m.id

/-! ## Calls that the vendor answers -/

section Answered

variable (v : Vendor) (env : Env) {w : World Index}

theorem pushRow_answered {row : Memory} (hnext : w.remote.next = .answered)
    (hdoc : ∀ d, row.externalId = some d → w.remote.docs d ≠ none) :
    (pushRow (vendorClient v) env row true w).1.externalStatus = .synced ∧
      ∃ d, (pushRow (vendorClient v) env row true w).1.externalId = some d ∧
        (pushRow (vendorClient v) env row true w).2.remote.docs d =
          some ⟨row.text, buildMetadata row⟩ := by
  unfold pushRow
  cases hext : row.externalId with
  | none =>
    simp only [sendToSupermemoryAdd, vendorClient, supermemoryClient, vendorSdk, deliver, hnext,
      Except.mapError]
    exact ⟨trivial, _, rfl, setDoc_self ..⟩
  | some d =>
    cases hold : w.remote.docs d with
    | none => exact absurd hold (hdoc d hext)
    | some doc =>
      simp only [sendToSupermemoryPatch, vendorClient, supermemoryClient, vendorSdk, deliver, hnext,
        hold, Except.mapError, if_true, Option.getD_some]
      exact ⟨trivial, d, hext, setDoc_self ..⟩

/-- **A delete that the vendor answers succeeds**, whether the document was still there or not. -/
theorem delete_answered {b : Index} (docId : String) (hnext : b.next = .answered) :
    ((vendorClient v).delete b docId).1 = .ok () ∧
      ((vendorClient v).delete b docId).2.docs docId = none := by
  simp only [vendorClient, supermemoryClient, vendorSdk, deliver, hnext]
  cases hdoc : b.docs docId with
  | none =>
    have hnotFound : notFoundError.exc.isinstance ["NotFoundError"] = true := by decide
    simp only [hnotFound, if_true]
    exact ⟨trivial, hdoc⟩
  | some doc => exact ⟨rfl, setDoc_self ..⟩

theorem retryDelete_answered (row : Memory) (docId : String) (hnext : w.remote.next = .answered) :
    (retryDelete (vendorClient v) row docId w).1 =
        { row with externalStatus := .synced, externalError := none } ∧
      (retryDelete (vendorClient v) row docId w).2.remote.docs docId = none := by
  obtain ⟨hok, hgone⟩ := delete_answered v docId hnext
  simp only [retryDelete, hok]
  exact ⟨trivial, hgone⟩

end Answered

/-! ## One sync -/

variable (pf : Platform) (v : Vendor) {w : World Index}

/-- **One sync that the vendor answers**: the row was settled, or it is now, and no other document
has changed. -/
theorem sync_answered (h : IndexInv w) (c : SyncCall) :
    ((vendorStep pf v w (c.event .answered)).memories = w.memories ∧
      (vendorStep pf v w (c.event .answered)).remote.docs = w.remote.docs ∧
      ∀ row ∈ w.memories.rows, c.covers row → row.externalStatus = .synced) ∨
    ∃ row ∈ w.memories.rows, c.covers row ∧ row.externalStatus ≠ .synced ∧ ∃ new,
      (vendorStep pf v w (c.event .answered)).memories = w.memories.put new ∧
      Settled (vendorStep pf v w (c.event .answered)).remote.docs row new ∧
      ∀ d ∈ w.remote.used, row.externalId ≠ some d →
        (vendorStep pf v w (c.event .answered)).remote.docs d = w.remote.docs d := by
  have hv : IndexInv (delivering w .answered) := ⟨h.sync, h.used, h.apart, h.stored⟩
  have hnext : (delivering w .answered).remote.next = .answered := rfl
  have hmemories : (delivering w .answered).memories = w.memories := rfl
  have hdocs : (delivering w .answered).remote.docs = w.remote.docs := rfl
  have hused : (delivering w .answered).remote.used = w.remote.used := rfl
  have hstep : vendorStep pf v w (c.event .answered) =
      (syncMemory (vendorClient v) c.env c.userId c.memoryId (delivering w .answered)).2 := rfl
  rw [hstep, ← hmemories, ← hdocs, ← hused]
  generalize delivering w .answered = w at hv hnext ⊢
  unfold syncMemory
  cases hfound : findOwned w.memories c.userId c.memoryId with
  | none =>
    refine Or.inl ⟨rfl, rfl, fun row hrow hcovers => ?_⟩
    rw [findOwned_eq_some.2 ⟨hrow, hcovers.2.symm, hcovers.1.symm⟩] at hfound
    cases hfound
  | some row =>
    obtain ⟨hrow, hid, huser⟩ := findOwned_eq_some.1 hfound
    cases hstatus : row.externalStatus with
    | synced =>
      simp only [hstatus]
      refine Or.inl ⟨trivial, trivial, fun other hother hcovers => ?_⟩
      rw [w.memories.eq_of_key_eq hother hrow (hcovers.2.symm.trans hid.symm)]
      exact hstatus
    | unsynced =>
      -- an unsynced row that has a document is live, so the document is there
      have hdoc : ∀ d, row.externalId = some d → w.remote.docs d ≠ none := by
        intro d hd
        refine hv.stored row hrow ?_ d hd
        by_contra hdead
        rw [(hv.sync row hrow).tombstone hdead hstatus] at hd
        cases hd
      obtain ⟨hsynced, hpushed⟩ := pushRow_answered v c.env hnext hdoc
      simp only [hstatus]
      refine Or.inr ⟨row, hrow, ⟨huser.symm, hid.symm⟩, by rw [hstatus]; simp, _, rfl,
        ⟨pushRow_erase .., hsynced, fun _ => hpushed, ?_, ?_⟩,
        (pushRow_pushed v c.env row true w).others⟩
      · intro hpending
        rw [hstatus] at hpending
        cases hpending
      · intro hsync
        rw [hstatus] at hsync
        cases hsync
    | pendingDelete =>
      obtain ⟨docId, hext⟩ := Option.ne_none_iff_exists'.1
        ((hv.sync row hrow).consistent.pending hstatus).2
      obtain ⟨hnew, hgone⟩ := retryDelete_answered v row docId hnext
      simp only [hstatus, hext]
      refine Or.inr ⟨row, hrow, ⟨huser.symm, hid.symm⟩, by rw [hstatus]; simp, _, rfl,
        ⟨retryDelete_erase .., by rw [hnew], ?_, ?_, ?_⟩, fun d _ hd => ?_⟩
      · intro hunsynced
        rw [hstatus] at hunsynced
        cases hunsynced
      · exact fun _ => ⟨docId, by rw [hnew]; exact hext, hext, hgone⟩
      · intro hsync
        rw [hstatus] at hsync
        cases hsync
      · refine (delete_removed v w.remote docId).others d fun heq => hd ?_
        rw [heq, hext]

/-! ## A pass of syncs -/

/-- The row `m` of an earlier state, untouched or settled. -/
def Progress (m : Memory) (w : World Index) : Prop :=
  ∃ m' ∈ w.memories.rows, m' = m ∨ Settled w.remote.docs m m'

/-- The row is settled. -/
def Done (m : Memory) (w : World Index) : Prop :=
  ∃ m' ∈ w.memories.rows, Settled w.remote.docs m m'

/-- A settled row stays as it is, and so does its document. -/
theorem settled_sync {m m' : Memory} (h : IndexInv w) (hm' : m' ∈ w.memories.rows)
    (hsettled : Settled w.remote.docs m m') (c : SyncCall) :
    m' ∈ (vendorStep pf v w (c.event .answered)).memories.rows ∧
      Settled (vendorStep pf v w (c.event .answered)).remote.docs m m' := by
  rcases sync_answered pf v h c with
    ⟨hmemories, hdocs, -⟩ | ⟨row, hrow, -, hstatus, new, hmemories, hnew, hdocs⟩
  · rw [hmemories, hdocs]
    exact ⟨hm', hsettled⟩
  · -- the sync was for another row, which has another document
    have hother : m'.id ≠ row.id := by
      intro hid
      obtain rfl := w.memories.eq_of_key_eq hm' hrow hid
      exact hstatus hsettled.status
    have hkept : ∀ d, m'.externalId = some d →
        (vendorStep pf v w (c.event .answered)).remote.docs d = w.remote.docs d := by
      intro d hd
      exact hdocs d (h.used m' hm' d hd) fun hrowDoc =>
        hother (h.apart m' hm' row hrow d hd hrowDoc)
    refine ⟨?_, hsettled.erase, hsettled.status, fun hunsynced => ?_, fun hpending => ?_,
      hsettled.synced⟩
    · rw [hmemories]
      exact Table.mem_put_of_ne hm' fun hid => hother (hid.trans hnew.id)
    · obtain ⟨d, hext, hdoc⟩ := hsettled.unsynced hunsynced
      exact ⟨d, hext, (hkept d hext).trans hdoc⟩
    · obtain ⟨d, hext, hold, hgone⟩ := hsettled.pending hpending
      exact ⟨d, hext, hold, (hkept d hext).trans hgone⟩

/-- An untouched row stays so, or is settled. -/
theorem untouched_sync {m : Memory} (h : IndexInv w) (hm : m ∈ w.memories.rows) (c : SyncCall) :
    Progress m (vendorStep pf v w (c.event .answered)) ∧
      (c.covers m → Done m (vendorStep pf v w (c.event .answered))) := by
  rcases sync_answered pf v h c with
    ⟨hmemories, hdocs, hsynced⟩ | ⟨row, hrow, hcovers, hstatus, new, hmemories, hnew, hdocs⟩
  · have hstays : m ∈ (vendorStep pf v w (c.event .answered)).memories.rows := by rwa [hmemories]
    refine ⟨⟨m, hstays, Or.inl rfl⟩, fun hcovers => ⟨m, hstays, ?_⟩⟩
    have hstatus := hsynced m hm hcovers
    refine ⟨rfl, hstatus, fun hunsynced => ?_, fun hpending => ?_, fun _ => rfl⟩
    · rw [hstatus] at hunsynced
      cases hunsynced
    · rw [hstatus] at hpending
      cases hpending
  · have hwritten : new ∈ (vendorStep pf v w (c.event .answered)).memories.rows := by
      rw [hmemories]
      exact Table.mem_put_self hrow hnew.id.symm
    by_cases hid : m.id = row.id
    · obtain rfl := w.memories.eq_of_key_eq hm hrow hid
      exact ⟨⟨new, hwritten, Or.inr hnew⟩, fun _ => ⟨new, hwritten, hnew⟩⟩
    · have hstays : m ∈ (vendorStep pf v w (c.event .answered)).memories.rows := by
        rw [hmemories]
        exact Table.mem_put_of_ne hm fun heq => hid (heq.trans hnew.id)
      refine ⟨⟨m, hstays, Or.inl rfl⟩, fun hm' => ?_⟩
      exact absurd (hm'.2.symm.trans hcovers.2) hid

/-- A row that is not covered, or is synced, stays as it is, and so does its document. -/
theorem left_sync {m : Memory} (h : IndexInv w) (hm : m ∈ w.memories.rows) {c : SyncCall}
    (hleft : ¬ c.covers m ∨ m.externalStatus = .synced) :
    m ∈ (vendorStep pf v w (c.event .answered)).memories.rows ∧ ∀ d, m.externalId = some d →
      (vendorStep pf v w (c.event .answered)).remote.docs d = w.remote.docs d := by
  rcases sync_answered pf v h c with
    ⟨hmemories, hdocs, -⟩ | ⟨row, hrow, hcovers, hstatus, new, hmemories, hnew, hdocs⟩
  · rw [hmemories, hdocs]
    exact ⟨hm, fun d _ => rfl⟩
  · have hid : m.id ≠ row.id := by
      intro hid
      obtain rfl := w.memories.eq_of_key_eq hm hrow hid
      exact hleft.elim (fun hnot => hnot hcovers) hstatus
    refine ⟨?_, fun d hd => hdocs d (h.used m hm d hd) fun hrowDoc =>
      hid (h.apart m hm row hrow d hd hrowDoc)⟩
    rw [hmemories]
    exact Table.mem_put_of_ne hm fun heq => hid (heq.trans hnew.id)

/-- The step of a pass. -/
def syncStep (w : World Index) (c : SyncCall) : World Index := vendorStep pf v w (c.event .answered)

theorem indexInv_syncStep (h : IndexInv w) (c : SyncCall) : IndexInv (syncStep pf v w c) :=
  indexInv_vendorStep pf v h _

theorem progress_syncStep {m : Memory} (h : IndexInv w) (hm : Progress m w) (c : SyncCall) :
    Progress m (syncStep pf v w c) := by
  obtain ⟨m', hm', rfl | hsettled⟩ := hm
  · exact (untouched_sync pf v h hm' c).1
  · obtain ⟨hstays, hafter⟩ := settled_sync pf v h hm' hsettled c
    exact ⟨m', hstays, Or.inr hafter⟩

/-- **A row that the pass covers is settled at its end.** -/
theorem done_of_covered {m : Memory} (h : IndexInv w) (hm : m ∈ w.memories.rows)
    {pass : List SyncCall} (hcovered : ∃ c ∈ pass, c.covers m) :
    Done m (Runs.run (syncStep pf v) w pass) := by
  have hstep : ∀ w c, IndexInv w ∧ Progress m w →
      IndexInv (syncStep pf v w c) ∧ Progress m (syncStep pf v w c) :=
    fun w c hw => ⟨indexInv_syncStep pf v hw.1 c, progress_syncStep pf v hw.1 hw.2 c⟩
  have hreach : ∀ w c, IndexInv w ∧ Progress m w → c.covers m → Done m (syncStep pf v w c) := by
    rintro w c ⟨hw, m', hm', rfl | hsettled⟩ hcovers
    · exact (untouched_sync pf v hw hm' c).2 hcovers
    · obtain ⟨hstays, hafter⟩ := settled_sync pf v hw hm' hsettled c
      exact ⟨m', hstays, hafter⟩
  have hkeep : ∀ w c, IndexInv w ∧ Progress m w → Done m w → Done m (syncStep pf v w c) := by
    rintro w c ⟨hw, -⟩ ⟨m', hm', hsettled⟩
    obtain ⟨hstays, hafter⟩ := settled_sync pf v hw hm' hsettled c
    exact ⟨m', hstays, hafter⟩
  obtain ⟨c, hc, hcovers⟩ := hcovered
  have hsteps : ∃ p ∈ Runs.steps (syncStep pf v) w pass, p.2.covers m := by
    obtain ⟨before, after, rfl⟩ := List.append_of_mem hc
    refine ⟨(Runs.run (syncStep pf v) w before, c), ?_, hcovers⟩
    rw [Runs.steps_append, Runs.steps_cons]
    exact List.mem_append_right _ List.mem_cons_self
  exact Runs.run_of_step hstep hreach hkeep ⟨h, m, hm, Or.inl rfl⟩ hsteps

/-- A row that the pass does not cover, or that was synced, is left alone, with its document. -/
theorem left_of_pass {m : Memory} (h : IndexInv w) (hm : m ∈ w.memories.rows)
    {pass : List SyncCall} (hleft : (¬ ∃ c ∈ pass, c.covers m) ∨ m.externalStatus = .synced) :
    m ∈ (Runs.run (syncStep pf v) w pass).memories.rows ∧ ∀ d, m.externalId = some d →
      (Runs.run (syncStep pf v) w pass).remote.docs d = w.remote.docs d := by
  induction pass generalizing w with
  | nil => exact ⟨hm, fun d _ => rfl⟩
  | cons c pass ih =>
    have hfirst := left_sync pf v h hm (c := c) (hleft.imp_left fun hnot hcovers =>
      hnot ⟨c, List.mem_cons_self, hcovers⟩)
    have hrest := ih (indexInv_syncStep pf v h c) hfirst.1 (hleft.imp_left fun hnot hcovers =>
      hnot (hcovers.imp fun c' hc' => ⟨List.mem_cons_of_mem _ hc'.1, hc'.2⟩))
    exact ⟨hrest.1, fun d hd => (hrest.2 d hd).trans (hfirst.2 d hd)⟩

/-! ## A second pass -/

/-- The rows that the sync covers are `synced`. -/
def Idle (t : MemoryTable) (c : SyncCall) : Prop :=
  ∀ m ∈ t.rows, c.covers m → m.externalStatus = .synced

/-- Such a sync makes no call and changes nothing. -/
theorem sync_idle (c : SyncCall) (delivery : Delivery) (h : Idle w.memories c) :
    (vendorStep pf v w (c.event delivery)).memories = w.memories ∧
      (vendorStep pf v w (c.event delivery)).remote.docs = w.remote.docs ∧
      (vendorStep pf v w (c.event delivery)).calls = w.calls := by
  have hstep : vendorStep pf v w (c.event delivery) =
      (syncMemory (vendorClient v) c.env c.userId c.memoryId (delivering w delivery)).2 := rfl
  have hmemories : (delivering w delivery).memories = w.memories := rfl
  rw [hstep]
  unfold syncMemory
  rw [hmemories]
  cases hfound : findOwned w.memories c.userId c.memoryId with
  | none => exact ⟨rfl, rfl, rfl⟩
  | some row =>
    obtain ⟨hrow, hid, huser⟩ := findOwned_eq_some.1 hfound
    simp only [h row hrow ⟨huser.symm, hid.symm⟩]
    exact ⟨rfl, rfl, rfl⟩

theorem run_idle {again : List (SyncCall × Delivery)} (h : ∀ p ∈ again, Idle w.memories p.1) :
    let w' := Runs.run (fun w (p : SyncCall × Delivery) => vendorStep pf v w (p.1.event p.2)) w
      again
    w'.memories = w.memories ∧ w'.remote.docs = w.remote.docs ∧ w'.calls = w.calls := by
  induction again generalizing w with
  | nil => exact ⟨rfl, rfl, rfl⟩
  | cons p again ih =>
    obtain ⟨hmemories, hdocs, hcalls⟩ := sync_idle pf v p.1 p.2 (h p List.mem_cons_self)
    have hrest := ih (w := vendorStep pf v w (p.1.event p.2)) fun q hq => by
      rw [hmemories]
      exact h q (List.mem_cons_of_mem _ hq)
    exact ⟨hrest.1.trans hmemories, hrest.2.1.trans hdocs, hrest.2.2.trans hcalls⟩

/-- After a settled row, every sync for it is idle. -/
theorem Done.idle {m : Memory} (h : Done m w) {c : SyncCall} (hcovers : c.covers m) :
    Idle w.memories c := by
  obtain ⟨m', hm', hsettled⟩ := h
  intro n hn hcn
  rw [w.memories.eq_of_key_eq hn hm' (hcn.2.symm.trans (hcovers.2.trans hsettled.id.symm))]
  exact hsettled.status

/-- A vendor that names each document longer than all before it. -/
def plainVendor : Vendor where
  pick used := String.ofList (List.replicate ((used.map String.length).sum + 1) 'd')
  pick_new used h := by
    have hlength := List.single_le_sum (fun _ _ => Nat.zero_le _) _
      (List.mem_map_of_mem h : _ ∈ used.map String.length)
    rw [String.length_ofList, List.length_replicate] at hlength
    omega
  search _ _ := .ok []

/-- A create whose answer is lost, and a sync: the row has a second document, and the first is
left. -/
example :
    let w := Runs.run (syncStep utcPlatform plainVendor)
      (Runs.run (vendorStep utcPlatform plainVendor) (initialWorld ⟨fun _ => none, [], .answered⟩)
        [⟨⟨0, 0, 1⟩, .create 7
            ⟨"ran".toList, sampleDate, "UTC".toList, none, none, none, none, none⟩,
          .lost ⟨⟨"APITimeoutError", ["APIConnectionError", "Exception"], []⟩, 0⟩⟩])
      [⟨⟨0, 0, 1⟩, 7, 1⟩]
    w.memories.rows.map Memory.externalId = [some "dd"] ∧ (w.remote.docs "d").isSome = true ∧
      (w.remote.docs "dd").isSome = true := by
  decide +kernel

end Convergence

end MeJournal
