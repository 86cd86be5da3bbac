import MeJournal.Lib.Confined
import MeJournal.Memory.Listing
import MeJournal.Memory.Search
import MeJournal.Memory.WellFormed

/-!
# A user's requests read and change the user's own rows only

Every request on existing memories selects by `user_id`, and the check of a patched row compares
it with rows of the same user.  So a request does the same on two databases that hold the same rows
of the user, and it leaves everybody else's as they were; what the backend answers plays no part.
The queries of a search leave the order of rows open, so the two databases are first taken to
return the same rows in the same order (`SameOrder`).

* `World.Alike` — the same rows of the user, the same backend.
* `serve_confined` — one request, as an operation confined to the user's rows.
* `own_rows_of_requests` — any sequence of the user's requests.
-/

namespace MeJournal

variable {R : Type}

/-! ## Requests -/

/-- The requests of a user other than `create_memory`. -/
inductive OwnRequest where
  | get (memoryId : UUID)
  | list (fromDate toDate : Option Date) (cursor : Option Text) (limit : Int)
  | search (q : Text) (limit : Int)
  | update (memoryId : UUID) (args : UpdateArgs)
  | delete (memoryId : UUID)
  | sync (memoryId : UUID)

def OwnRequest.isSearch : OwnRequest → Bool
  | .search _ _ => true
  | _ => false

/-- What a request returns. -/
inductive Returned where
  | memory (row : Memory)
  | page (rows : List Memory) (nextCursor : Option Text)
  | found (result : SearchResult)
  | nothing
  deriving DecidableEq

/-- What a request shows: its result or exception, and the searches it called. -/
structure Served where
  result : Except ServiceError Returned
  searches : List SearchCall

def serve (pf : Platform) (cp : CursorPlatform) (sp : SearchPlatform) (client : SearchClient R)
    (env : Env) (userId : UUID) : OwnRequest → World R → Served × World R
  | .get memoryId, w => (⟨(getMemory w.memories userId memoryId).map .memory, []⟩, w)
  | .list fromDate toDate cursor limit, w =>
    (⟨(listMemories cp w.memories ⟨userId, fromDate, toDate, limit⟩ cursor).map fun p =>
      .page p.1 p.2, []⟩, w)
  | .search q limit, w =>
    let (result, w') := searchMemories sp client userId q limit w
    (⟨result.map .found, [searchCall userId q limit]⟩, w')
  | .update memoryId args, w =>
    let (result, w') := updateMemory pf client.toMemoryClient env userId memoryId args w
    (⟨result.map .memory, []⟩, w')
  | .delete memoryId, w =>
    let (result, w') := deleteMemory client.toMemoryClient env userId memoryId w
    (⟨result.map fun _ => .nothing, []⟩, w')
  | .sync memoryId, w =>
    let (result, w') := syncMemory client.toMemoryClient env userId memoryId w
    (⟨result.map .memory, []⟩, w')

/-! ## Own rows -/

/-- The databases hold the same rows of the user. -/
def SameOwn (userId : UUID) (t u : MemoryTable) : Prop :=
  ∀ m : Memory, m.userId = userId → (m ∈ t.rows ↔ m ∈ u.rows)

def othersRows (userId : UUID) (memories : MemoryTable) : MemoryTable :=
  memories.restrict fun m => m.userId ≠ userId

def World.others (userId : UUID) (w : World R) : MemoryTable := othersRows userId w.memories

/-- Worlds that only differ in what other users store. -/
structure World.Alike (userId : UUID) (w w' : World R) : Prop where
  own : SameOwn userId w.memories w'.memories
  remote : w.remote = w'.remote
  calls : w.calls = w'.calls

/-- The same text search, over two databases that return the same rows in the same order. -/
structure SearchPlatform.SameOrder (sp sp' : SearchPlatform) : Prop where
  found : sp.found = sp'.found
  rank : sp.rank = sp'.rank
  order : ∀ rows rows' : List Memory, rows.Perm rows' → (rows.map Memory.id).Nodup →
    sp.order rows = sp'.order rows'

section

variable {userId memoryId : UUID} {t u : MemoryTable} {row row' : Memory}

/-- A selection by a condition that asks for the user. -/
theorem SameOwn.filter_perm (h : SameOwn userId t u) {p : Memory → Bool}
    (hp : ∀ m, p m = true → m.userId = userId) : (t.rows.filter p).Perm (u.rows.filter p) := by
  refine (List.perm_ext_iff_of_nodup (t.rows_nodup.filter p) (u.rows_nodup.filter p)).2 fun m => ?_
  rw [List.mem_filter, List.mem_filter]
  exact and_congr_left fun hm => h m (hp m hm)

theorem SameOwn.of_filter (h : (t.rows.filter fun m => m.userId = userId) =
    u.rows.filter fun m => m.userId = userId) : SameOwn userId t u := by
  intro m hm
  have hmem : ∀ v : MemoryTable, m ∈ v.rows ↔ m ∈ v.rows.filter fun m => m.userId = userId := by
    simp [hm]
  rw [hmem t, hmem u, h]

theorem SameOwn.findOwned (h : SameOwn userId t u) (memoryId : UUID) :
    findOwned t userId memoryId = findOwned u userId memoryId := by
  refine Option.ext fun m => ?_
  rw [findOwned_eq_some, findOwned_eq_some]
  constructor
  · rintro ⟨hm, hid, huser⟩
    exact ⟨(h m huser).1 hm, hid, huser⟩
  · rintro ⟨hm, hid, huser⟩
    exact ⟨(h m huser).2 hm, hid, huser⟩

/-- The user's row, written back under its id. -/
theorem SameOwn.put (h : SameOwn userId t u) (hrow : row ∈ t.rows) (howner : row.userId = userId)
    (hid : row'.id = row.id) : SameOwn userId (t.put row') (u.put row') := by
  have hhas : t.has row'.id = true := Table.has_iff.2 ⟨row, hrow, hid.symm⟩
  have hhas' : u.has row'.id = true := Table.has_iff.2 ⟨row, (h row howner).1 hrow, hid.symm⟩
  intro m hm
  rw [Table.mem_put_iff, Table.mem_put_iff, hhas, hhas', h m hm]

theorem othersRows_put (hrow : row ∈ t.rows) (howner : row.userId = userId) (hid : row'.id = row.id)
    (huser : row'.userId = row.userId) : othersRows userId (t.put row') = othersRows userId t := by
  have hput : othersRows userId (t.put row') = (othersRows userId t).put row' := by
    refine Table.restrict_put fun m hm hkey => ?_
    rw [t.eq_of_key_eq hm hrow (hkey.trans hid), huser]
  refine hput.trans (Table.put_of_absent fun m hm hkey => ?_)
  obtain ⟨hmem, hother⟩ := List.mem_filter.1 hm
  rw [t.eq_of_key_eq hmem hrow (hkey.trans hid)] at hother
  simp [howner] at hother

/-- The checks of a changed row compare it with rows of its own user. -/
theorem SameOwn.flush (pf : Platform) (h : SameOwn userId t u) (howner : row'.userId = userId) :
    (flush pf t row').map (fun _ => ()) = (flush pf u row').map fun _ => () := by
  have hany : (t.rows.any fun other => other.id != row'.id && other.userId = row'.userId &&
        other.contentHash = row'.contentHash && other.deletedAt.isNone) =
      u.rows.any fun other => other.id != row'.id && other.userId = row'.userId &&
        other.contentHash = row'.contentHash && other.deletedAt.isNone := by
    rw [Bool.eq_iff_iff, List.any_eq_true, List.any_eq_true]
    refine exists_congr fun other => and_congr_left fun hother => h other ?_
    simp only [Bool.and_eq_true, decide_eq_true_eq] at hother
    exact hother.1.1.2.trans howner
  unfold MeJournal.flush
  rw [hany]
  split
  · rfl
  split
  · rfl
  split
  · rfl
  · rfl

end

/-! ## The writing requests -/

section Writes

variable {userId memoryId : UUID} {w w' : World R} {row : Memory}

theorem sendToSupermemoryAdd_alike (client : MemoryClient R) (env : Env) (row : Memory)
    (h : w.Alike userId w') :
    (sendToSupermemoryAdd client env row w).1 = (sendToSupermemoryAdd client env row w').1 ∧
      (sendToSupermemoryAdd client env row w).2.Alike userId
        (sendToSupermemoryAdd client env row w').2 := by
  simp only [sendToSupermemoryAdd, h.remote, h.calls]
  exact ⟨trivial, h.own, rfl, rfl⟩

theorem pushRow_alike (client : MemoryClient R) (env : Env) (row : Memory) (changed : Bool)
    (h : w.Alike userId w') :
    (pushRow client env row changed w).1 = (pushRow client env row changed w').1 ∧
      (pushRow client env row changed w).2.Alike userId
        (pushRow client env row changed w').2 := by
  unfold pushRow
  split
  · exact sendToSupermemoryAdd_alike client env row h
  · simp only [sendToSupermemoryPatch, h.remote, h.calls]
    exact ⟨trivial, h.own, rfl, rfl⟩

theorem sendDelete_alike (client : MemoryClient R) (row : Memory) (docId : String)
    (h : w.Alike userId w') :
    (sendDelete client row docId w).1 = (sendDelete client row docId w').1 ∧
      (sendDelete client row docId w).2.Alike userId (sendDelete client row docId w').2 := by
  simp only [sendDelete, h.remote, h.calls]
  exact ⟨trivial, h.own, rfl, rfl⟩

theorem retryDelete_alike (client : MemoryClient R) (row : Memory) (docId : String)
    (h : w.Alike userId w') :
    (retryDelete client row docId w).1 = (retryDelete client row docId w').1 ∧
      (retryDelete client row docId w).2.Alike userId (retryDelete client row docId w').2 := by
  simp only [retryDelete, h.remote, h.calls]
  exact ⟨trivial, h.own, rfl, rfl⟩

/-- The user's row, committed after a call. -/
theorem commitRow_alike {t u : MemoryTable} {p p' : Memory × World R} (hown : SameOwn userId t u)
    (hrow : row ∈ t.rows) (howner : row.userId = userId) (hid : p.1.id = row.id)
    (h : p.1 = p'.1 ∧ p.2.Alike userId p'.2) :
    (commitRow t p).Alike userId (commitRow u p') := by
  obtain ⟨hsame, hworld⟩ := h
  refine ⟨?_, hworld.remote, hworld.calls⟩
  rw [commitRow_memories, commitRow_memories, ← hsame]
  exact hown.put hrow howner hid

/-- The user's row, committed without one. -/
theorem commitRow_alike_local {row' : Memory} (h : w.Alike userId w') (hrow : row ∈ w.memories.rows)
    (howner : row.userId = userId) (hid : row'.id = row.id) :
    (commitRow w.memories (row', w)).Alike userId (commitRow w'.memories (row', w')) :=
  commitRow_alike (p := (row', w)) h.own hrow howner hid ⟨rfl, h⟩

theorem updateMemory_alike (pf : Platform) (client : MemoryClient R) (env : Env)
    (memoryId : UUID) (args : UpdateArgs) (h : w.Alike userId w') :
    (updateMemory pf client env userId memoryId args w).1 =
        (updateMemory pf client env userId memoryId args w').1 ∧
      (updateMemory pf client env userId memoryId args w).2.Alike userId
        (updateMemory pf client env userId memoryId args w').2 := by
  unfold updateMemory
  rw [← h.own.findOwned]
  cases hrow : (findOwned w.memories userId memoryId).filter fun row => row.deletedAt.isNone with
  | none => exact ⟨rfl, h⟩
  | some row =>
    obtain ⟨hmem, _, howner⟩ := findOwned_eq_some.1 (Option.filter_eq_some_iff.1 hrow).1
    dsimp only
    cases hpatch : applyPatch pf row args with
    | error e => exact ⟨rfl, h⟩
    | ok p =>
      obtain ⟨row', changed⟩ := p
      obtain ⟨hid, huser, -⟩ := applyPatch_ids hpatch
      have hflush := h.own.flush pf (huser.trans howner)
      dsimp only
      cases hfl : flush pf w.memories row' with
      | error e =>
        cases hfl' : flush pf w'.memories row' with
        | error e' =>
          rw [hfl, hfl'] at hflush
          obtain rfl : e = e' := Except.error.inj hflush
          exact ⟨rfl, h⟩
        | ok memories' =>
          rw [hfl, hfl'] at hflush
          cases hflush
      | ok memories =>
        cases hfl' : flush pf w'.memories row' with
        | error e' =>
          rw [hfl, hfl'] at hflush
          cases hflush
        | ok memories' =>
          obtain rfl := flush_ok hfl
          obtain rfl := flush_ok hfl'
          have hpushed := pushRow_alike client env row' changed h
          refine ⟨congrArg Except.ok hpushed.1, ?_⟩
          exact commitRow_alike (h.own.put hmem howner hid) (Table.mem_put_self hmem hid.symm)
            (huser.trans howner) (pushRow_id ..) hpushed

theorem deleteMemory_alike (client : MemoryClient R) (env : Env) (memoryId : UUID)
    (h : w.Alike userId w') :
    (deleteMemory client env userId memoryId w).1 =
        (deleteMemory client env userId memoryId w').1 ∧
      (deleteMemory client env userId memoryId w).2.Alike userId
        (deleteMemory client env userId memoryId w').2 := by
  unfold deleteMemory
  rw [← h.own.findOwned]
  cases hrow : findOwned w.memories userId memoryId with
  | none => exact ⟨rfl, h⟩
  | some row =>
    obtain ⟨hmem, _, howner⟩ := findOwned_eq_some.1 hrow
    dsimp only
    split
    · exact ⟨rfl, h⟩
    refine ⟨?_, ?_⟩
    · cases row.externalId with
      | none => rfl
      | some docId => rfl
    split
    · exact commitRow_alike_local h hmem howner rfl
    · exact commitRow_alike h.own hmem howner (sendDelete_id ..)
        (sendDelete_alike client { row with deletedAt := some env.now } _ h)

theorem syncMemory_alike (client : MemoryClient R) (env : Env) (memoryId : UUID)
    (h : w.Alike userId w') :
    (syncMemory client env userId memoryId w).1 = (syncMemory client env userId memoryId w').1 ∧
      (syncMemory client env userId memoryId w).2.Alike userId
        (syncMemory client env userId memoryId w').2 := by
  unfold syncMemory
  rw [← h.own.findOwned]
  cases hrow : findOwned w.memories userId memoryId with
  | none => exact ⟨rfl, h⟩
  | some row =>
    obtain ⟨hmem, _, howner⟩ := findOwned_eq_some.1 hrow
    dsimp only
    split
    · exact ⟨rfl, h⟩
    · have hpushed := pushRow_alike client env row true h
      exact ⟨congrArg Except.ok hpushed.1,
        commitRow_alike h.own hmem howner (pushRow_id ..) hpushed⟩
    split
    · exact ⟨rfl, commitRow_alike_local h hmem howner rfl⟩
    · rename_i docId hext
      have hretried := retryDelete_alike client row docId h
      exact ⟨congrArg Except.ok hretried.1,
        commitRow_alike h.own hmem howner (retryDelete_id ..) hretried⟩

end Writes

/-! ## Everybody else's rows -/

def Request.userId : Request → UUID
  | .create userId _ | .update userId _ _ | .delete userId _ | .sync userId _ => userId

/-- **A request writes rows of its own user only.** -/
theorem handle_others (pf : Platform) (client : MemoryClient R) (env : Env) (w : World R)
    (req : Request) : (handle pf client env w req).others req.userId = w.others req.userId := by
  have heff := request_effect pf client env w req
  generalize handle pf client env w req = w' at heff ⊢
  have hput : ∀ {t : MemoryTable} {row : Memory} {p : Memory × World R}, row ∈ t.rows →
      row.Keeps p.1 → (commitRow t p).others row.userId = othersRows row.userId t :=
    fun hrow hkeeps => othersRows_put hrow rfl hkeeps.id hkeeps.userId
  cases heff with
  | unchanged => rfl
  | @created userId args text memories hcheck hhash hinsert =>
    have hrows := (Table.insert?_eq_some.1 hinsert).2
    have hnew : newRow pf env userId args text ∈ memories.rows :=
      (Table.mem_insert? hinsert).2 (Or.inr rfl)
    refine (hput hnew (sendToSupermemoryAdd_keeps client env _ w)).trans (Table.ext ?_)
    refine (congrArg (List.filter fun m => m.userId ≠ userId) hrows).trans ?_
    rw [List.filter_append, List.filter_cons_of_neg (by simp [newRow]), List.filter_nil,
      List.append_nil]
    rfl
  | @updated args row row' changed memories hrow hlive hpatch hflush =>
    obtain ⟨hid, huser, -⟩ := applyPatch_ids hpatch
    obtain rfl := flush_ok hflush
    have hpushed := hput (Table.mem_put_self hrow hid.symm)
      (pushRow_keeps client env row' changed w)
    rw [huser] at hpushed
    exact hpushed.trans (othersRows_put hrow rfl hid huser)
  | @deletedLocally row hrow hlive hext => exact hput hrow (keeps_deleted row env.now)
  | @deleted row docId hrow hlive hext =>
    exact hput hrow ((keeps_deleted row env.now).trans (sendDelete_keeps client _ docId w))
  | @synced row hrow hstatus => exact hput hrow (pushRow_keeps client env row true w)
  | @settled row hrow hstatus hext =>
    exact hput (p := ({ row with externalStatus := .synced, externalError := none }, w)) hrow
      ⟨rfl, rfl, rfl, rfl, rfl, rfl, rfl, id⟩
  | @retried row docId hrow hstatus hext => exact hput hrow (retryDelete_keeps client row docId w)

/-! ## The reading requests -/

section Reads

variable {userId : UUID} {t u : MemoryTable}

theorem SameOwn.getMemory (h : SameOwn userId t u) (memoryId : UUID) :
    getMemory t userId memoryId = getMemory u userId memoryId := by
  rw [MeJournal.getMemory, h.findOwned, MeJournal.getMemory]

/-- The pages are in an order that leaves nothing open. -/
theorem SameOwn.listMemories (args : ListArgs) (h : SameOwn args.userId t u) (cp : CursorPlatform)
    (cursor : Option Text) : listMemories cp t args cursor = listMemories cp u args cursor := by
  have hselect : ∀ after : Option (Date × UUID),
      (t.rows.filter fun m => args.selects m && after.all fun c => beforeCursor c m).insertionSort
          newestDateFirst =
        (u.rows.filter fun m => args.selects m && after.all fun c => beforeCursor c m).insertionSort
          newestDateFirst := by
    intro after
    refine Table.insertionSort_filter_congr newestDateFirst (fun m n => newestDateFirst_antisymm)
      fun m hm => h m ?_
    simp only [ListArgs.selects, Bool.and_eq_true, decide_eq_true_eq] at hm
    exact hm.1.1.1.1
  simp only [MeJournal.listMemories, hselect]

theorem foundRows_perm (sp : SearchPlatform) (h : SameOwn userId t u) (q : Text) :
    (foundRows sp t userId q).Perm (foundRows sp u userId q) := by
  refine h.filter_perm fun m hm => ?_
  simp only [Bool.and_eq_true, decide_eq_true_eq] at hm
  exact hm.1.1

theorem candidates_perm (h : SameOwn userId t u) (docIds : List String) :
    (candidates t userId docIds).Perm (candidates u userId docIds) := by
  refine h.filter_perm fun m hm => ?_
  simp only [Bool.and_eq_true, decide_eq_true_eq] at hm
  exact hm.1.2

variable {sp sp' : SearchPlatform}

theorem SearchPlatform.SameOrder.searchLocalFallback (hsp : sp.SameOrder sp')
    (h : SameOwn userId t u) (q : Text) (limit : Nat) :
    searchLocalFallback sp t userId q limit = searchLocalFallback sp' u userId q limit := by
  have hfound : foundRows sp' u userId q = foundRows sp u userId q := by
    simp only [foundRows, hsp.found]
  have horder : sp.order (foundRows sp t userId q) = sp'.order (foundRows sp' u userId q) := by
    rw [hfound]
    exact hsp.order _ _ (foundRows_perm sp h q) (t.pk.sublist (List.filter_sublist.map Memory.id))
  simp only [MeJournal.searchLocalFallback, hsp.rank, horder]

theorem SearchPlatform.SameOrder.lookupHits (hsp : sp.SameOrder sp') (h : SameOwn userId t u)
    (smHits : List SearchHit) :
    lookupHits sp t userId smHits = lookupHits sp' u userId smHits := by
  have horder : sp.order (candidates t userId (smHits.map SearchHit.docId)) =
      sp'.order (candidates u userId (smHits.map SearchHit.docId)) :=
    hsp.order _ _ (candidates_perm h _) (t.pk.sublist (List.filter_sublist.map Memory.id))
  simp only [MeJournal.lookupHits, horder]

theorem searchMemories_alike (hsp : sp.SameOrder sp') (client : SearchClient R) (q : Text)
    (limit : Int) {w w' : World R} (h : w.Alike userId w') :
    (searchMemories sp client userId q limit w).1 =
        (searchMemories sp' client userId q limit w').1 ∧
      (searchMemories sp client userId q limit w).2.Alike userId
        (searchMemories sp' client userId q limit w').2 := by
  simp only [searchMemories, ← h.remote]
  refine ⟨?_, h.own, rfl, h.calls⟩
  split
  · exact hsp.searchLocalFallback h.own q _
  · exact hsp.lookupHits h.own _

end Reads

/-! ## Every request -/

section Serve

variable (pf : Platform) (cp : CursorPlatform) {sp sp' : SearchPlatform} (client : SearchClient R)
  (env : Env) {userId : UUID}

theorem serve_others (sp : SearchPlatform) (req : OwnRequest) (w : World R) :
    (serve pf cp sp client env userId req w).2.others userId = w.others userId := by
  cases req with
  | get memoryId => rfl
  | list fromDate toDate cursor limit => rfl
  | search q limit => rfl
  | update memoryId args =>
    exact handle_others pf client.toMemoryClient env w (.update userId memoryId args)
  | delete memoryId => exact handle_others pf client.toMemoryClient env w (.delete userId memoryId)
  | sync memoryId => exact handle_others pf client.toMemoryClient env w (.sync userId memoryId)

/-- A request other than a search is the same in both worlds, in whatever order rows come back. -/
theorem serve_alike (sp sp' : SearchPlatform) {req : OwnRequest} (hreq : req.isSearch = false)
    {w w' : World R} (h : w.Alike userId w') :
    (serve pf cp sp client env userId req w).1 = (serve pf cp sp' client env userId req w').1 ∧
      (serve pf cp sp client env userId req w).2.Alike userId
        (serve pf cp sp' client env userId req w').2 := by
  cases req with
  | get memoryId =>
    exact ⟨congrArg (fun r => Served.mk (r.map .memory) []) (h.own.getMemory memoryId), h⟩
  | list fromDate toDate cursor limit =>
    have hpage := SameOwn.listMemories ⟨userId, fromDate, toDate, limit⟩ h.own cp cursor
    exact ⟨congrArg (fun r => Served.mk (r.map fun p => .page p.1 p.2) []) hpage, h⟩
  | search q limit => cases hreq
  | update memoryId args =>
    have hupdate := updateMemory_alike pf client.toMemoryClient env memoryId args h
    exact ⟨congrArg (fun r => Served.mk (r.map .memory) []) hupdate.1, hupdate.2⟩
  | delete memoryId =>
    have hdelete := deleteMemory_alike client.toMemoryClient env memoryId h
    exact ⟨congrArg (fun r => Served.mk (r.map fun _ => .nothing) []) hdelete.1, hdelete.2⟩
  | sync memoryId =>
    have hsync := syncMemory_alike client.toMemoryClient env memoryId h
    exact ⟨congrArg (fun r => Served.mk (r.map .memory) []) hsync.1, hsync.2⟩

/-- **One request is confined to the user's rows.** -/
theorem serve_confined (userId : UUID) (hsp : sp.SameOrder sp') (req : OwnRequest) :
    Confined (World.Alike userId) (World.others userId) (serve pf cp sp client env userId req)
      (serve pf cp sp' client env userId req) where
  agree w w' h := by
    cases req with
    | search q limit =>
      have hsearch := searchMemories_alike hsp client q limit h
      exact ⟨congrArg (fun r => Served.mk (r.map .found) [searchCall userId q limit]) hsearch.1,
        hsearch.2⟩
    | get | list | update | delete | sync => exact serve_alike pf cp client env sp sp' rfl h
  frame := serve_others pf cp client env sp req
  frame' := serve_others pf cp client env sp' req

end Serve

/-- **Any sequence of a user's requests**, on two databases that hold the same rows of the user and
return them in the same order. -/
theorem own_rows_of_requests (pf : Platform) (cp : CursorPlatform) {sp sp' : SearchPlatform}
    (hsp : sp.SameOrder sp') (client : SearchClient R) (userId : UUID) {w w' : World R}
    (h : w.Alike userId w') (reqs : List (Env × OwnRequest)) :
    let step := fun (sp : SearchPlatform) (w : World R) (r : Env × OwnRequest) =>
      (serve pf cp sp client r.1 userId r.2 w).2
    let shown := fun (sp : SearchPlatform) (p : World R × Env × OwnRequest) =>
      (serve pf cp sp client p.2.1 userId p.2.2 p.1).1
    (Runs.steps (step sp) w reqs).map (shown sp) =
        (Runs.steps (step sp') w' reqs).map (shown sp') ∧
      (Runs.run (step sp) w reqs).Alike userId (Runs.run (step sp') w' reqs) ∧
      (Runs.run (step sp) w reqs).others userId = w.others userId := by
  intro step shown
  have hconfined := fun r : Env × OwnRequest => serve_confined pf cp client r.1 userId hsp r.2
  obtain ⟨hshown, hend⟩ := Confined.run_agree hconfined h reqs
  exact ⟨hshown, hend, Confined.run_hidden hconfined w reqs⟩

/-! ## A few rows -/

/-- A user creates a memory. -/
def ranOf (userId newId : UUID) : MemoryEvent :=
  ⟨⟨0, 0, newId⟩,
    .create userId ⟨"ran".toList, sampleDate, "UTC".toList, none, none, none, none, none⟩⟩

def memoriesAfter (es : List MemoryEvent) : MemoryTable :=
  (Runs.run (memoryStep utcPlatform backend) (initialWorld ⟨fun _ => none, .err .transient⟩)
    es).memories

/-- A backend that answers every search with the second user's row. -/
def namesTheOther : SearchClient Backend where
  toMemoryClient := backend
  search b _ := (.ok [⟨String.ofList (uuidText 2), .fin 0⟩], b)

/-- Rows come back in table order and match every query. -/
def tableOrder : SearchPlatform where
  order := id
  order_perm _ := List.Perm.refl _
  found _ _ := true
  rank _ _ := 0

end MeJournal
