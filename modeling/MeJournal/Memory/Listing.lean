import MeJournal.Lib.Keyset
import MeJournal.Cursors
import MeJournal.Memory.SyncState

/-!
# Listing memories page by page

`list_memories` of `app/services/memory.py`, and runs in which its pages are fetched by following
`next_cursor` while other requests change the table.

* `listMemories_page` — one call is one page of the keyset traversal by `(event_date, id)`,
  newest first.
* `listing_by_pages` — what a client that follows the cursors is returned, in every run.
-/

namespace MeJournal

open scoped KeyOrder

variable {R : Type}

/-! ## `list_memories` -/

structure ListArgs where
  userId : UUID
  fromDate : Option Date
  toDate : Option Date
  limit : Int

/-- The `WHERE` clauses other than the cursor's. -/
def ListArgs.selects (args : ListArgs) (m : Memory) : Bool :=
  m.userId = args.userId && m.deletedAt.isNone &&
    args.fromDate.all (fun d => d ≤ m.eventDate) && args.toDate.all fun d => m.eventDate ≤ d

/-- `event_date < cur_date OR (event_date = cur_date AND id < cur_id)`. -/
def beforeCursor (cursor : Date × UUID) (m : Memory) : Bool :=
  m.eventDate < cursor.1 || (m.eventDate = cursor.1 && m.id < cursor.2)

/-- `ORDER BY event_date DESC, id DESC`. -/
def newestDateFirst (m n : Memory) : Prop :=
  n.eventDate < m.eventDate ∨ (n.eventDate = m.eventDate ∧ n.id ≤ m.id)

instance : DecidableRel newestDateFirst := fun _ _ => inferInstanceAs (Decidable (_ ∨ _))

/-- `decode_cursor` where a cursor is given. -/
def decodeAfter (cp : CursorPlatform) : Option Text → Except ServiceError (Option (Date × UUID))
  | none => .ok none
  | some cursor => (decodeCursor cp cursor).map some

/-- `list_memories`. -/
def listMemories (cp : CursorPlatform) (memories : MemoryTable) (args : ListArgs)
    (cursor : Option Text) : Except ServiceError (List Memory × Option Text) :=
  let limit := clampLimit args.limit
  match decodeAfter cp cursor with
  | .error e => .error e
  | .ok after =>
    let rows := ((memories.rows.filter fun m =>
      args.selects m && after.all fun c => beforeCursor c m).insertionSort newestDateFirst).take
        (limit + 1)
    if limit < rows.length then
      .ok (rows.take limit, rows[limit - 1]?.map fun last => encodeCursor last.eventDate last.id)
    else .ok (rows, none)

/-! ## As a keyset traversal -/

/-- The sort key, in descending order. -/
def Memory.listKey (m : Memory) : (Date ×ₗ UUID)ᵒᵈ := OrderDual.toDual (toLex (m.eventDate, m.id))

/-- The cursor of a key. -/
def listCursor (k : (Date ×ₗ UUID)ᵒᵈ) : Text :=
  encodeCursor (ofLex (OrderDual.ofDual k)).1 (ofLex (OrderDual.ofDual k)).2

theorem listKey_nodup (memories : MemoryTable) : (memories.rows.map Memory.listKey).Nodup := by
  refine List.Nodup.of_map (fun k => (ofLex (OrderDual.ofDual k)).2) ?_
  rw [List.map_map]
  exact memories.pk

theorem listKey_le {m n : Memory} : m.listKey ≤ n.listKey ↔ newestDateFirst m n := by
  rw [Memory.listKey, Memory.listKey, OrderDual.toDual_le_toDual, Prod.Lex.toLex_le_toLex]
  rfl

instance : Std.Total newestDateFirst :=
  ⟨fun m n => by rw [← listKey_le, ← listKey_le]; exact le_total _ _⟩

instance : IsTrans Memory newestDateFirst :=
  ⟨fun _ _ _ h h' => listKey_le.1 (le_trans (listKey_le.2 h) (listKey_le.2 h'))⟩

theorem newestDateFirst_antisymm {m n : Memory} (h : newestDateFirst m n)
    (h' : newestDateFirst n m) : m.id = n.id := by
  have hkey : m.listKey = n.listKey := le_antisymm (listKey_le.2 h) (listKey_le.2 h')
  exact congrArg (fun k => (ofLex (OrderDual.ofDual k)).2) hkey

theorem lt_listKey {k : (Date ×ₗ UUID)ᵒᵈ} {m : Memory} :
    k < m.listKey ↔ beforeCursor (ofLex (OrderDual.ofDual k)) m = true := by
  rw [Memory.listKey, OrderDual.lt_toDual, Prod.Lex.lt_iff]
  simp [beforeCursor]

theorem listCursor_listKey (m : Memory) : listCursor m.listKey = encodeCursor m.eventDate m.id :=
  rfl

/-- **One call is one page** of the traversal; a cursor it is given back is never refused. -/
theorem listMemories_page (cp : CursorPlatform) (memories : MemoryTable) (args : ListArgs)
    (cursor : Option (Date ×ₗ UUID)ᵒᵈ) :
    listMemories cp memories args (cursor.map listCursor) =
      let found := Keyset.page Memory.listKey args.selects (clampLimit args.limit) cursor
        memories.rows
      .ok (found.1, found.2.map listCursor) := by
  have hdecode : decodeAfter cp (cursor.map listCursor) =
      .ok (cursor.map fun k => ofLex (OrderDual.ofDual k)) := by
    cases cursor with
    | none => rfl
    | some k => simp [decodeAfter, listCursor, decodeCursor_encodeCursor, Except.map]
  have hselect : ((memories.rows.filter fun m => args.selects m &&
      (cursor.map fun k => ofLex (OrderDual.ofDual k)).all fun c => beforeCursor c m).insertionSort
        newestDateFirst) = Keyset.select Memory.listKey args.selects cursor memories.rows := by
    unfold Keyset.select
    have hfilter : (fun m => args.selects m &&
        (cursor.map fun k => ofLex (OrderDual.ofDual k)).all fun c => beforeCursor c m) =
          fun m => args.selects m && cursor.all fun c => decide (c < m.listKey) := by
      funext m
      cases cursor with
      | none => rfl
      | some k => simp [lt_listKey]
    rw [hfilter]
    exact Keyset.insertionSort_congr (fun m n => listKey_le.symm) _
  simp only [listMemories, hdecode, hselect, Keyset.page]
  split
  · simp only [Option.map_map, Function.comp_def, listCursor_listKey]
  · rfl

/-- `list_memories` serves the pages of the keyset traversal, on every table. -/
theorem listMemories_serves (cp : CursorPlatform) (args : ListArgs) :
    Keyset.Serves (fun w : World R => listMemories cp w.memories args) (fun w => w.memories.rows)
      Memory.listKey args.selects (clampLimit args.limit) listCursor (fun _ => True)
      (fun _ => True) where
  positive := (clampLimit_range args.limit).1
  distinct w _ := listKey_nodup w.memories
  good _ _ _ _ _ := trivial
  served w _ cursor _ := listMemories_page cp w.memories args cursor

/-! ## Runs -/

/-- The memory `id` is listed, under the date `d`. -/
def listedAs (args : ListArgs) (id : UUID) (d : Date) (memories : MemoryTable) : Prop :=
  ∃ m ∈ memories.rows, m.id = id ∧ m.eventDate = d ∧ args.selects m = true

instance (args : ListArgs) (id : UUID) (d : Date) (memories : MemoryTable) :
    Decidable (listedAs args id d memories) :=
  inferInstanceAs (Decidable (∃ m ∈ memories.rows, _))

theorem listedAs_lists {args : ListArgs} {id : UUID} {d : Date} {memories : MemoryTable}
    (h : listedAs args id d memories) :
    Keyset.Lists Memory.listKey args.selects (fun m => m.id = id)
      (OrderDual.toDual (toLex (d, id))) memories.rows := by
  obtain ⟨m, hm, hid, hd, hsel⟩ := h
  refine ⟨⟨m, hm, hsel, by simpa using hid⟩, fun n hn hnid => ?_⟩
  have hnid : n.id = id := by simpa using hnid
  obtain rfl : n = m := memories.eq_of_key_eq hn hm (hnid.trans hid.symm)
  rw [Memory.listKey, hid, hd]

/-- A client lists memories while other requests run. -/
abbrev listStep (pf : Platform) (cp : CursorPlatform) (client : MemoryClient R) (args : ListArgs) :
    Keyset.Client (World R) Memory Text ServiceError → Keyset.ClientEvent MemoryEvent →
      Keyset.Client (World R) Memory Text ServiceError :=
  Keyset.clientStep (fun w => listMemories cp w.memories args) (memoryStep pf client)

/-- **A listing by pages.**  In every run of fetches and other requests no fetch raises, every page
is within the clamped limit, and `(event_date, id)` decreases strictly across all pages.  A memory
that every fetch up to the last finds listed under one date is returned exactly once.  When
nothing else runs, the pages are the selected rows, newest first, after boundedly many fetches. -/
theorem listing_by_pages (pf : Platform) (cp : CursorPlatform) (client : MemoryClient R)
    (args : ListArgs) (w : World R) (es : List (Keyset.ClientEvent MemoryEvent)) :
    let s := Runs.run (listStep pf cp client args) (Keyset.clientStart w) es
    s.raised = [] ∧ (∀ pg ∈ s.pages, pg.length ≤ clampLimit args.limit) ∧
      s.pages.flatten.Pairwise
        (fun m n => toLex (n.eventDate, n.id) < toLex (m.eventDate, m.id)) ∧
      (∀ id d, (∀ q ∈ Runs.steps (listStep pf cp client args) (Keyset.clientStart w) es,
          q.2.isFetch = true → q.1.next ≠ none → listedAs args id d q.1.store.memories) →
        s.next = none → s.pages.flatten.countP (fun m => m.id = id) = 1) ∧
      ((∀ e ∈ es, e.isFetch = true) →
        (w.memories.rows.length < es.length → s.next = none) ∧
        (s.next = none →
          s.pages.flatten =
            (w.memories.rows.filter args.selects).insertionSort newestDateFirst)) := by
  intro s
  have hserves := listMemories_serves (R := R) cp args
  have hchange : ∀ w e, True → True → True := fun (_ : World R) (_ : MemoryEvent) _ _ => trivial
  have hes : ∀ e ∈ es, e.Allows fun _ => True := fun e _ => by cases e <;> trivial
  obtain ⟨hraised, hshort, hkeys⟩ := Keyset.client_run hserves hchange trivial hes
  refine ⟨hraised, hshort, hkeys, fun id d hlisted hdone => ?_, fun hfetch => ?_⟩
  · exact Keyset.client_tracked hserves hchange trivial hes
      (fun q hq hisfetch hnext => listedAs_lists (hlisted q hq hisfetch hnext)) hdone
  · obtain ⟨hend, hall⟩ := Keyset.client_still hserves trivial hfetch
    refine ⟨hend, fun hdone => (hall hdone).trans ?_⟩
    simp only [Keyset.select, Option.all_none, Bool.and_true]
    exact Keyset.insertionSort_congr (fun m n => listKey_le) _

/-- Two memories of one day. -/
def twoMemories : World Backend :=
  Runs.run (memoryStep utcPlatform backend) (initialWorld ⟨fun _ => none, .err .transient⟩)
    [⟨⟨0, 0, 1⟩, .create 7 ⟨"ran".toList, sampleDate, "UTC".toList, none, none, none, none, none⟩⟩,
      ⟨⟨0, 0, 2⟩, .create 7 ⟨"ate".toList, sampleDate, "UTC".toList, none, none, none, none, none⟩⟩]

/-- They are listed one to a page; a third is created between the pages. -/
def pagesOfOne : List (Keyset.ClientEvent MemoryEvent) :=
  [.fetch,
    .change ⟨⟨0, 0, 3⟩, .create 7 ⟨"swam".toList, sampleDate, "UTC".toList, none, none, none, none,
      none⟩⟩,
    .fetch]

theorem listing_by_pages_of_one :
    (Runs.run (listStep utcPlatform plainCursors backend ⟨7, none, none, 0⟩)
      (Keyset.clientStart twoMemories) pagesOfOne).pages.flatten.countP (fun m => m.id = 1) = 1 :=
  (listing_by_pages utcPlatform plainCursors backend ⟨7, none, none, 0⟩ twoMemories
    pagesOfOne).2.2.2.1 1 sampleDate (by decide +kernel) (by decide +kernel)

end MeJournal
