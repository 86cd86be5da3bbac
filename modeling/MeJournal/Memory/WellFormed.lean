import MeJournal.Lib.Strip
import MeJournal.Memory.SyncState

/-!
# Committed rows are well formed

What the checks of the service, the CHECK constraints and the partial unique index keep true of
every row, through any sequence of requests and whatever the remote client answers.

* `Memory.WellFormed` — text, hash, time zone and coordinates of one row.
* `RowsInv` — every row is well formed, and the live rows of a user have different hashes.
* `rowsInv_handle` — one request keeps it; `rowsInv_states` — so does every run.
-/

namespace MeJournal

variable {R : Type}

/-! ## Stripping -/

/-- Stripping a stripped text changes nothing. -/
theorem pyStrip_pyStrip (t : Text) : pyStrip (pyStrip t) = pyStrip t := strip_strip isPySpace t

/-! ## Rows -/

/-- A row as the checks of the service leave it. -/
structure Memory.WellFormed (pf : Platform) (m : Memory) : Prop where
  text : m.text ≠ []
  stripped : pyStrip m.text = m.text
  hash : m.contentHash = canonicalHash pf m.text
  tz : validateTz pf m.eventTz = .ok ()
  location : (m.locationLat = none ∧ m.locationLng = none) ∨
    ∃ lat lng, m.locationLat = some lat ∧ m.locationLng = some lng ∧
      lat.within 90 = true ∧ lng.within 180 = true

/-- The rows of the table: each well formed, and no two live ones of a user with one hash. -/
structure RowsInv (pf : Platform) (memories : MemoryTable) : Prop where
  wellFormed : ∀ m ∈ memories.rows, m.WellFormed pf
  unique : ∀ m ∈ memories.rows, ∀ n ∈ memories.rows, m.live → n.live → m.userId = n.userId →
    m.contentHash = n.contentHash → m.id = n.id

/-- `m'` has the columns of `m` that the invariant reads, and is live only if `m` is. -/
structure Memory.Keeps (m m' : Memory) : Prop where
  id : m'.id = m.id
  userId : m'.userId = m.userId
  text : m'.text = m.text
  hash : m'.contentHash = m.contentHash
  tz : m'.eventTz = m.eventTz
  lat : m'.locationLat = m.locationLat
  lng : m'.locationLng = m.locationLng
  live : m'.live → m.live

theorem location_of_checks {lat lng : Option PyFloat} (h : locationChecks lat lng = true) :
    (lat = none ∧ lng = none) ∨ ∃ x y, lat = some x ∧ lng = some y ∧
      x.within 90 = true ∧ y.within 180 = true := by
  cases lat with
  | none =>
    cases lng with
    | none => exact Or.inl ⟨rfl, rfl⟩
    | some y => simp [locationChecks] at h
  | some x =>
    cases lng with
    | none => simp [locationChecks] at h
    | some y => exact Or.inr ⟨x, y, rfl, rfl, by simpa [locationChecks] using h⟩

theorem Memory.WellFormed.checks {pf : Platform} {m : Memory} (h : m.WellFormed pf) :
    locationChecks m.locationLat m.locationLng = true := by
  rcases h.location with ⟨hlat, hlng⟩ | ⟨x, y, hlat, hlng, hx, hy⟩
  · rw [hlat, hlng]
    rfl
  · rw [hlat, hlng]
    simp [locationChecks, hx, hy]

/-! ## Rows that are written -/

section Writes

variable {pf : Platform} {memories : MemoryTable} {m m' : Memory}

theorem Memory.Keeps.wellFormed (h : m.Keeps m') (hm : m.WellFormed pf) : m'.WellFormed pf where
  text := h.text ▸ hm.text
  stripped := h.text ▸ hm.stripped
  hash := by rw [h.hash, h.text, hm.hash]
  tz := h.tz ▸ hm.tz
  location := by rw [h.lat, h.lng]; exact hm.location

/-- A well-formed row may take its place when its hash is free among the live rows of its user. -/
theorem RowsInv.put (h : RowsInv pf memories) (hm : m'.WellFormed pf)
    (hfree : m'.live → ∀ n ∈ memories.rows, n.id ≠ m'.id → n.live → n.userId = m'.userId →
      n.contentHash ≠ m'.contentHash) : RowsInv pf (memories.put m') := by
  refine ⟨fun n hn => ?_, fun n hn k hk hnlive hklive huser hhash => ?_⟩
  · rcases Table.mem_put hn with rfl | ⟨hn, _⟩
    · exact hm
    · exact h.wellFormed n hn
  · rcases Table.mem_put hn with rfl | ⟨hold, hne⟩ <;>
      rcases Table.mem_put hk with rfl | ⟨hold', hne'⟩
    · rfl
    · exact absurd hhash.symm (hfree hnlive k hold' hne' hklive huser.symm)
    · exact absurd hhash (hfree hklive n hold hne hnlive huser)
    · exact h.unique n hold k hold' hnlive hklive huser hhash

/-- Writing back a row with its columns kept. -/
theorem RowsInv.put_keeps (h : RowsInv pf memories) (hm : m ∈ memories.rows)
    (hkeeps : m.Keeps m') : RowsInv pf (memories.put m') := by
  refine h.put (hkeeps.wellFormed (h.wellFormed m hm)) fun hlive n hn hne hnlive huser hhash => ?_
  rw [hkeeps.userId] at huser
  rw [hkeeps.hash] at hhash
  rw [hkeeps.id] at hne
  exact hne (h.unique n hn m hm hnlive (hkeeps.live hlive) huser hhash)

/-- A new well-formed row whose hash is free. -/
theorem RowsInv.insert {memories' : MemoryTable} (h : RowsInv pf memories)
    (hinsert : memories.insert? m = some memories') (hm : m.WellFormed pf)
    (hfree : findByHash memories m.userId m.contentHash = none) : RowsInv pf memories' := by
  obtain ⟨_, hrows⟩ := Table.insert?_eq_some.1 hinsert
  have hother : ∀ n ∈ memories.rows, n.live → n.userId = m.userId →
      n.contentHash ≠ m.contentHash := by
    intro n hn hlive huser hhash
    have hnone := List.find?_eq_none.1 hfree n hn
    simp [huser, hhash, hlive] at hnone
  refine ⟨fun n hn => ?_, fun n hn k hk hnlive hklive huser hhash => ?_⟩
  · rw [hrows, List.mem_append, List.mem_singleton] at hn
    rcases hn with hn | rfl
    · exact h.wellFormed n hn
    · exact hm
  · rw [hrows, List.mem_append, List.mem_singleton] at hn hk
    rcases hn with hn | rfl <;> rcases hk with hk | rfl
    · exact h.unique n hn k hk hnlive hklive huser hhash
    · exact absurd hhash (hother n hn hnlive huser)
    · exact absurd hhash.symm (hother k hk hklive huser.symm)
    · rfl

end Writes

/-! ## What the requests write -/

theorem sendToSupermemoryAdd_keeps (client : MemoryClient R) (env : Env) (row : Memory)
    (w : World R) : row.Keeps (sendToSupermemoryAdd client env row w).1 := by
  simp only [sendToSupermemoryAdd]
  split <;> constructor <;> first | rfl | exact id

theorem pushRow_keeps (client : MemoryClient R) (env : Env) (row : Memory) (changed : Bool)
    (w : World R) : row.Keeps (pushRow client env row changed w).1 := by
  unfold pushRow
  split
  · exact sendToSupermemoryAdd_keeps client env row w
  · simp only [sendToSupermemoryPatch]
    split <;> constructor <;> first | rfl | exact id

theorem sendDelete_keeps (client : MemoryClient R) (row : Memory) (docId : String) (w : World R) :
    row.Keeps (sendDelete client row docId w).1 := by
  simp only [sendDelete]
  split <;> constructor <;> first | rfl | exact id

theorem retryDelete_keeps (client : MemoryClient R) (row : Memory) (docId : String)
    (w : World R) : row.Keeps (retryDelete client row docId w).1 := by
  simp only [retryDelete]
  split <;> constructor <;> first | rfl | exact id

theorem Memory.Keeps.trans {a b c : Memory} (h : a.Keeps b) (h' : b.Keeps c) : a.Keeps c where
  id := h'.id.trans h.id
  userId := h'.userId.trans h.userId
  text := h'.text.trans h.text
  hash := h'.hash.trans h.hash
  tz := h'.tz.trans h.tz
  lat := h'.lat.trans h.lat
  lng := h'.lng.trans h.lng
  live hlive := h.live (h'.live hlive)

/-- A tombstone of the row. -/
theorem keeps_deleted (m : Memory) (now : Time) : m.Keeps { m with deletedAt := some now } :=
  ⟨rfl, rfl, rfl, rfl, rfl, rfl, rfl, fun h => absurd h (by simp)⟩

/-- **The checks of `create_memory` make the new row well formed.** -/
theorem newRow_wellFormed {pf : Platform} {env : Env} {userId : UUID} {args : CreateArgs}
    {text : Text} (h : checkCreate pf args = .ok text) :
    (newRow pf env userId args text).WellFormed pf := by
  have hlocation := location_of_checks (checkCreate_located h)
  unfold checkCreate at h
  simp only at h
  split at h
  · cases h
  rename_i htext
  split at h
  · cases h
  rename_i htz
  split at h
  · cases h
  obtain rfl : pyStrip args.text = text := by simpa using h
  refine ⟨by simpa [newRow] using htext, pyStrip_pyStrip _, rfl, htz, hlocation⟩

/-- **The checks of `update_memory` keep the patched row well formed.** -/
theorem applyPatch_wellFormed {pf : Platform} {row row' : Memory} {args : UpdateArgs}
    {changed : Bool} (hrow : row.WellFormed pf) (h : applyPatch pf row args = .ok (row', changed)) :
    row'.WellFormed pf := by
  have hlocation := location_of_checks (applyPatch_located h hrow.checks)
  obtain ⟨hcheck, row₁, htext, rfl⟩ := applyPatch_cases h
  have htz : validateTz pf (args.eventTz.apply row.eventTz) = .ok () := by
    unfold checkUpdate at hcheck
    split at hcheck
    · cases hcheck
    rename_i htz
    cases hpatch : args.eventTz with
    | unset => exact hrow.tz
    | set tz =>
      rw [hpatch] at htz
      exact htz
  have hfields : row₁.text ≠ [] ∧ pyStrip row₁.text = row₁.text ∧
      row₁.contentHash = canonicalHash pf row₁.text ∧ row₁.eventTz = row.eventTz := by
    obtain ⟨rfl, -, -⟩ | ⟨new, -, hne, -, -, rfl⟩ := patchText_cases htext
    · exact ⟨hrow.text, hrow.stripped, hrow.hash, rfl⟩
    · exact ⟨hne, pyStrip_pyStrip _, rfl, rfl⟩
  obtain ⟨hne, hstripped, hhash, heq⟩ := hfields
  refine ⟨hne, hstripped, hhash, ?_, hlocation⟩
  rw [patchColumns, heq]
  exact htz

/-- **One request keeps the rows well formed**, for every client. -/
theorem rowsInv_handle (pf : Platform) (client : MemoryClient R) (env : Env) {w : World R}
    (h : RowsInv pf w.memories) (req : Request) :
    RowsInv pf (handle pf client env w req).memories := by
  have heff := request_effect pf client env w req
  generalize handle pf client env w req = w' at heff ⊢
  cases heff with
  | unchanged => exact h
  | @created userId args text memories hcheck hhash hinsert =>
    have hinserted := h.insert hinsert (newRow_wellFormed hcheck) hhash
    have hmem : newRow pf env userId args text ∈ memories.rows :=
      (Table.mem_insert? hinsert).2 (Or.inr rfl)
    exact hinserted.put_keeps hmem (sendToSupermemoryAdd_keeps client env _ w)
  | @updated args row row' changed memories hrow hlive hpatch hflush =>
    obtain ⟨_, _, hfree, rfl⟩ := flush_eq_ok.1 hflush
    have hput := h.put (applyPatch_wellFormed (h.wellFormed row hrow) hpatch) fun _ => hfree
    have hid : row'.id = row.id := (applyPatch_ids hpatch).1
    exact hput.put_keeps (Table.mem_put_self hrow hid.symm)
      (pushRow_keeps client env row' changed w)
  | @deletedLocally row hrow hlive hext => exact h.put_keeps hrow (keeps_deleted row env.now)
  | @deleted row docId hrow hlive hext =>
    exact h.put_keeps hrow
      ((keeps_deleted row env.now).trans (sendDelete_keeps client _ docId w))
  | @synced row hrow hstatus => exact h.put_keeps hrow (pushRow_keeps client env row true w)
  | @settled row hrow hstatus hext =>
    exact h.put_keeps hrow ⟨rfl, rfl, rfl, rfl, rfl, rfl, rfl, id⟩
  | @retried row docId hrow hstatus hext =>
    exact h.put_keeps hrow (retryDelete_keeps client row docId w)

/-- **Every row that a run commits is well formed, and no two live rows of a user have the same
content hash.** -/
theorem rowsInv_states (pf : Platform) (client : MemoryClient R) (remote : R)
    (es : List MemoryEvent) :
    ∀ w ∈ Runs.states (memoryStep pf client) (initialWorld remote) es, RowsInv pf w.memories := by
  have hstart : RowsInv pf (initialWorld remote).memories := by
    constructor <;> simp [initialWorld]
  have hstep : ∀ (w : World R) (e : MemoryEvent), RowsInv pf w.memories →
      RowsInv pf (memoryStep pf client w e).memories :=
    fun _ e h => rowsInv_handle pf client e.env h e.req
  exact Runs.inv_states hstep hstart es

/-- A create, a patch of the text and the coordinates, a create with the old text, a delete. -/
theorem rowsInv_states_edited :
    RowsInv utcPlatform (Runs.run (memoryStep utcPlatform backend)
      (initialWorld ⟨fun _ => none, .ok "doc"⟩)
      [⟨⟨0, 0, 1⟩, .create 7
          ⟨" ran ".toList, sampleDate, "UTC".toList, none, none, none, none, none⟩⟩,
        ⟨⟨0, 0, 2⟩, .update 7 1
          ⟨.set "swam".toList, .unset, .unset, .unset, .set (some (.fin 0)), .set (some (.fin 0)),
            .unset⟩⟩,
        ⟨⟨0, 0, 2⟩, .create 7
          ⟨"RAN".toList, sampleDate, "UTC".toList, none, none, none, none, none⟩⟩,
        ⟨⟨0, 0, 3⟩, .delete 7 1⟩]).memories :=
  rowsInv_states utcPlatform backend _ _ _ (Runs.run_mem_states ..)

end MeJournal
