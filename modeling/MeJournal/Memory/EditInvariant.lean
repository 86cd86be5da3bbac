import MeJournal.Memory.EditMoves

/-!
# The invariant of two concurrent requests

* `EditInv` — the invariant of every interleaving: who holds the lock, when a copy is still the
  row, when the document is gone, and that nothing is `unsynced` while a request can still make
  its client call.
* `editInv_move` — one move keeps it; each kind of move is a lemma of its own.
-/

namespace MeJournal

/-! ## How far a request is -/

def EditPc.copies : EditPc → List Memory
  | .patched loaded current _ => [loaded, current]
  | .flushed row _ => [row]
  | .marked loaded current => [loaded, current]
  | .called loaded current => [loaded, current]
  | _ => []

/-- The copy a request loaded, before its first write. -/
def EditPc.loaded? : EditPc → Option Memory
  | .patched loaded _ _ => some loaded
  | .marked loaded _ => some loaded
  | _ => none

/-- Before the first write and the client call. -/
def EditPc.early : EditPc → Bool
  | .requested _ => true
  | .patched .. => true
  | .marked .. => true
  | _ => false

/-- Past the client call. -/
def EditPc.late : EditPc → Bool
  | .called .. => true
  | .closing => true
  | .finished => true
  | _ => false

/-- Flushed a changed text, and about to push it. -/
def EditPc.pushesText : EditPc → Bool
  | .flushed _ textChanged => textChanged
  | _ => false

/-- The client call of a delete is made, its flush is not. -/
def EditPc.deleting : EditPc → Prop
  | .called loaded current => loaded.live ∧ ¬ current.live
  | _ => False

/-- The copies belong together and name the document `docId`. -/
def EditPc.Sound (docId : String) : EditPc → Prop
  | .patched loaded current textChanged =>
    loaded.externalId = some docId ∧ PatchOf loaded current textChanged
  | .flushed row _ => row.externalId = some docId
  | .marked loaded current =>
    loaded.externalId = some docId ∧ loaded.live ∧
      ∃ at_, current = { loaded with deletedAt := some at_ }
  | .called loaded current => loaded.externalId = some docId ∧ CallOf loaded current
  | _ => True

/-! ## The invariant -/

/-- The invariant of every interleaving of two requests on a row with document `docId`. -/
structure EditInv (pf : Platform) (others : List Memory) (docId : String) (s : Editing) : Prop where
  storedId : s.stored.externalId = some docId
  newestId : s.newest.externalId = some docId
  storedAdmits : admits pf others s.stored = true
  newestAdmits : admits pf others s.newest = true
  sound : ∀ side, (s.pc side).Sound docId
  /-- The lock is held from the first write to the COMMIT. -/
  lock : ∀ side row, s.pending = some (side, row) →
    (s.pc side).early = false ∧ s.pc side ≠ .finished
  /-- While the other request has written nothing, a loaded copy is the row, -/
  loaded : ∀ side row, (s.pc side).loaded? = some row → (s.pc (!side)).early = true →
    s.newest = row
  /-- and a flushed copy has the row's metadata. -/
  flushed : ∀ side row textChanged, s.pc side = .flushed row textChanged →
    (s.pc (!side)).early = true → buildMetadata row = buildMetadata s.newest
  /-- A changed text is pushed under the lock. -/
  text : ∀ side row, s.pc side = .flushed row true →
    s.pending = some (side, s.newest) ∧ s.newest.text = row.text
  content : ∀ doc, s.docs docId = some doc →
    doc.content = s.newest.text ∨ ∃ side, (s.pc side).pushesText = true
  /-- The document is gone once a delete has called the client. -/
  gone : s.docs docId = none ↔ ¬ s.newest.live ∨ ∃ side, (s.pc side).deleting
  caller : s.docs docId = none → ∃ side, (s.pc side).late = true
  /-- Nothing is `unsynced` while a request can still make its client call. -/
  status : (∀ side, (s.pc side).late = true) ∨
    s.stored.externalStatus = .synced ∧ s.newest.externalStatus = .synced ∧
      ∀ side, ∀ m ∈ (s.pc side).copies, m.externalStatus = .synced

@[grind →] theorem EditPc.late_of_early {pc : EditPc} (h : pc.early = true) : pc.late = false := by
  cases pc <;> simp_all [EditPc.early, EditPc.late]

theorem EditPc.pushesText_of_early {pc : EditPc} (h : pc.early = true) :
    pc.pushesText = false := by
  cases pc <;> simp_all [EditPc.early, EditPc.pushesText]

@[grind →] theorem EditPc.not_deleting {pc : EditPc} (h : pc.late = false) : ¬ pc.deleting := by
  cases pc <;> simp_all [EditPc.late, EditPc.deleting]

variable {pf : Platform} {others : List Memory} {docId : String} {s s' : Editing} {side : Bool}

/-- No lock is held while nothing has been written. -/
theorem EditInv.pending_early (h : EditInv pf others docId s)
    (hearly : ∀ side, (s.pc side).early = true) : s.pending = none := by
  cases hp : s.pending with
  | none => rfl
  | some version =>
    have hlock := (h.lock version.1 version.2 hp).1
    rw [hearly] at hlock
    cases hlock

/-- A request that has written nothing and goes on without writing: it loads the row, or ends. -/
theorem inv_goto_early (h : EditInv pf others docId s) {pc : EditPc}
    (hearly : (s.pc side).early = true) (hnew : pc.early = true ∨ pc = .finished)
    (hsound : pc.Sound docId) (hloaded : ∀ row, pc.loaded? = some row → row = s.stored)
    (hcopies : s.stored.externalStatus = .synced → ∀ m ∈ pc.copies, m.externalStatus = .synced) :
    EditInv pf others docId (s.goto side pc) := by
  have hlate : (s.pc side).late = false := EditPc.late_of_early hearly
  have hpush : ∀ row textChanged, pc ≠ .flushed row textChanged := by
    rintro row textChanged rfl
    rcases hnew with hnew | hnew <;> cases hnew
  have hnot : ∀ row textChanged, s.pc side ≠ .flushed row textChanged := by
    intro row textChanged hpc
    rw [hpc] at hearly
    cases hearly
  have hdel : ¬ pc.deleting := by
    rcases hnew with hnew | rfl
    · exact EditPc.not_deleting (EditPc.late_of_early hnew)
    · exact id
  have hpushes : pc.pushesText = false ∧ (s.pc side).pushesText = false := by
    refine ⟨?_, EditPc.pushesText_of_early hearly⟩
    rcases hnew with hnew | rfl
    · exact EditPc.pushesText_of_early hnew
    · rfl
  have hpcs := goto_pc s side pc
  refine
    { h with
      sound := ?_, lock := ?_, loaded := ?_, flushed := ?_, text := ?_, content := ?_, gone := ?_,
      caller := ?_, status := ?_ }
  · have hold := h.sound
    grind
  · intro other row hrow
    have hold := h.lock other row hrow
    grind
  · intro other row hrow hother
    have hold := h.loaded other row
    by_cases ho : other = side
    · subst ho
      have hpending : s.pending = none := by
        refine h.pending_early (forall_side other hearly ?_)
        grind
      have hnewest := newest_of_pending_none hpending
      grind
    · grind
  · have hold := h.flushed
    grind
  · intro other row hrow
    have hpc : s.pc other = .flushed row true := by grind
    exact h.text other row hpc
  · rw [exists_pc (P := fun pc => pc.pushesText = true) hpcs (by simp [hpushes])]
    exact h.content
  · rw [exists_pc hpcs (iff_of_false hdel (EditPc.not_deleting hlate))]
    exact h.gone
  · intro hgone
    obtain ⟨other, hother⟩ := h.caller hgone
    exact ⟨other, by grind⟩
  · have hactive : ¬ ∀ other, (s.pc other).late = true := by grind
    obtain ⟨hstored, hnewest, hold⟩ := h.status.resolve_left hactive
    refine Or.inr ⟨hstored, hnewest, fun other m hm => ?_⟩
    have hnewcopies := hcopies hstored
    have holdcopies := hold other
    grind

/-- The lock after a flush. -/
theorem EditInv.lock_flushed (h : EditInv pf others docId s) {loaded current : Memory}
    {next : EditPc} (hw : Flushed pf others s s' side loaded current next)
    (hnext : next.early = false) (hopen : next ≠ .finished) (other : Bool) (row : Memory)
    (hrow : s'.pending = some (other, row)) :
    (s'.pc other).early = false ∧ s'.pc other ≠ .finished := by
  have hpcs := hw.pc
  rcases hw.pending with ⟨hsame, _⟩ | ⟨hown, _, _⟩
  · have hold := h.lock other row (hsame ▸ hrow)
    grind
  · grind

/-- A changed text that the other request is about to push stays under the lock. -/
theorem EditInv.text_flushed (h : EditInv pf others docId s) {loaded current row : Memory}
    {next : EditPc} (hw : Flushed pf others s s' side loaded current next) {other : Bool}
    (ho : other ≠ side) (hother : s.pc other = .flushed row true) :
    s'.pending = some (other, s'.newest) ∧ s'.newest.text = row.text := by
  obtain ⟨hpending, htext⟩ := h.text other row hother
  rcases hw.pending with ⟨hp', hsame⟩ | ⟨_, _, hown⟩
  · rw [hw.newest, hsame, writeColumns_self, hp']
    exact ⟨hpending, htext⟩
  · exact absurd (hown _ _ hpending) ho

/-- What a patch writes of the row. -/
theorem Flushed.patched_row {loaded current : Memory} {textChanged : Bool} {next : EditPc}
    (hw : Flushed pf others s s' side loaded current next)
    (hp : PatchOf loaded current textChanged) :
    s'.newest.externalId = s.newest.externalId ∧ s'.newest.deletedAt = s.newest.deletedAt ∧
      s'.newest.externalStatus = s.newest.externalStatus ∧
      s'.newest.text = if textChanged then current.text else s.newest.text := by
  refine ⟨?_, ?_, ?_, ?_⟩
  · simp [hw.newest, writeColumns, hp.externalId]
  · simp [hw.newest, writeColumns, hp.deletedAt]
  · simp [hw.newest, writeColumns, hp.externalStatus]
  · cases textChanged with
    | true => simp [hw.newest, writeColumns, writeColumn, hp.text.1 rfl]
    | false =>
      have hsame : current.text = loaded.text := by simpa using hp.text
      simp [hw.newest, writeColumns, hsame]

/-- An update flushes its patch. -/
theorem inv_patched (h : EditInv pf others docId s) {loaded current : Memory} {textChanged : Bool}
    (hpc : s.pc side = .patched loaded current textChanged)
    (hw : Flushed pf others s s' side loaded current (.flushed current textChanged)) :
    EditInv pf others docId s' := by
  have hso := h.sound side
  rw [hpc] at hso
  obtain ⟨hid, hp⟩ := hso
  have hcid : current.externalId = some docId := hp.externalId.trans hid
  obtain ⟨hnid, hnlive, hnstatus, hntext⟩ := hw.patched_row hp
  have hstored := hw.stored
  have hdocs := hw.docs
  have hpcs := hw.pc
  constructor
  case storedId =>
    rw [hstored]; exact h.storedId
  case newestId =>
    rw [hnid]; exact h.newestId
  case storedAdmits =>
    rw [hstored]; exact h.storedAdmits
  case newestAdmits =>
    rcases hw.pending with ⟨_, hsame⟩ | ⟨_, hadmits, _⟩
    · rw [hw.newest, hsame, writeColumns_self]
      exact h.newestAdmits
    · exact hadmits
  case sound =>
    intro other
    have hold := h.sound other
    have hnew : (EditPc.flushed current textChanged).Sound docId := hcid
    grind
  case lock => exact h.lock_flushed hw rfl nofun
  case loaded =>
    intro other row hrow hother
    -- neither request is past its first write
    rcases side_cases side other with rfl | ho
    · grind [EditPc.loaded?]
    · grind [EditPc.early]
  case flushed =>
    intro other row changed hrow hother
    rcases side_cases side other with rfl | ho
    · obtain rfl : current = row := by grind
      have hloaded : s.newest = loaded :=
        h.loaded other loaded (by grind [EditPc.loaded?]) (by grind)
      rw [hw.newest, hloaded, hp.write_loaded]
    · grind [EditPc.early]
  case text =>
    intro other row hrow
    by_cases ho : other = side
    · subst ho
      obtain ⟨rfl, rfl⟩ : current = row ∧ textChanged = true := by grind
      have hne : current ≠ loaded := fun hsame => hp.text.1 rfl (congrArg Memory.text hsame)
      obtain ⟨hpending, _, _⟩ := hw.pending.resolve_left fun hno => hne hno.2
      exact ⟨hpending, hntext⟩
    · exact h.text_flushed hw ho (by grind)
  case content =>
    intro doc hdoc
    cases textChanged with
    | true => exact Or.inr ⟨side, by simp [hpcs, EditPc.pushesText]⟩
    | false =>
      rw [exists_pc (P := fun pc => pc.pushesText = true) hpcs (by simp [EditPc.pushesText, hpc]),
        hntext, if_neg Bool.false_ne_true]
      exact h.content doc (hdocs ▸ hdoc)
  case gone =>
    rw [exists_pc hpcs (iff_of_false id (by simp [hpc, EditPc.deleting])), hdocs, Memory.live,
      hnlive]
    exact h.gone
  case caller =>
    intro hgone
    obtain ⟨other, hother⟩ := h.caller (hdocs ▸ hgone)
    exact ⟨other, by grind [EditPc.late]⟩
  case status =>
    have hactive : ¬ ∀ other, (s.pc other).late = true := by grind [EditPc.late]
    obtain ⟨hsstatus, hsnewest, hold⟩ := h.status.resolve_left hactive
    refine Or.inr ⟨hstored ▸ hsstatus, hnstatus.trans hsnewest, fun other m hm => ?_⟩
    have hold' := hold other
    have hside := hold side
    grind [EditPc.copies]

/-- When a request is past its client call, the other is no longer alone in having written. -/
theorem not_early_of_late {next : EditPc} (hnext : next.late = true)
    (hpcs : ∀ other, s'.pc other = if other = side then next else s.pc other) (other : Bool)
    (hearly : (s'.pc (!other)).early = true) :
    (∀ version, (s'.pc other).loaded? ≠ some version) ∧
      ∀ version changed, s'.pc other ≠ .flushed version changed := by
  have hlate := EditPc.late_of_early hearly
  rcases side_cases side other with rfl | ho
  · rw [hpcs, if_pos rfl]
    cases next <;> simp_all [EditPc.late, EditPc.loaded?]
  · rw [hpcs, if_pos ho, hnext] at hlate
    cases hlate

/-- What holds whatever else a move past the client call does. -/
theorem EditInv.late_move (h : EditInv pf others docId s) {next : EditPc}
    (hpcs : ∀ other, s'.pc other = if other = side then next else s.pc other)
    (hnext : next.late = true) (hsound : next.Sound docId) :
    (∀ other, (s'.pc other).Sound docId) ∧
      (∀ other row, (s'.pc other).loaded? = some row → (s'.pc (!other)).early = true →
        s'.newest = row) ∧
      (∀ other row textChanged, s'.pc other = .flushed row textChanged →
        (s'.pc (!other)).early = true → buildMetadata row = buildMetadata s'.newest) ∧
      ∃ other, (s'.pc other).late = true := by
  have hlast := not_early_of_late hnext hpcs
  refine ⟨fun other => ?_, ?_, ?_, side, by rw [hpcs, if_pos rfl, hnext]⟩
  · have hold := h.sound other
    grind
  · exact fun other row hv hearly => ((hlast other hearly).1 row hv).elim
  · exact fun other row changed hv hearly => ((hlast other hearly).2 row changed hv).elim

/-- A client call leaves the row and the lock alone. -/
theorem EditInv.call_row (h : EditInv pf others docId s) {loaded current : Memory}
    (hpcs : ∀ other, s'.pc other = if other = side then .called loaded current else s.pc other)
    (hstored : s'.stored = s.stored) (hpending : s'.pending = s.pending) :
    s'.newest = s.newest ∧
      (∀ other row, s'.pending = some (other, row) →
        (s'.pc other).early = false ∧ s'.pc other ≠ .finished) ∧
      ∀ other row, s'.pc other = .flushed row true →
        s'.pending = some (other, s'.newest) ∧ s'.newest.text = row.text := by
  have hnewest : s'.newest = s.newest := by
    simp only [Editing.newest, hpending, hstored]
  refine ⟨hnewest, fun other row hrow => ?_, fun other row hrow => ?_⟩
  · have hold := h.lock other row (hpending ▸ hrow)
    grind [EditPc.early]
  · have hother : s.pc other = .flushed row true := by grind
    rw [hpending, hnewest]
    exact h.text other row hother

/-- An update makes its client call. -/
theorem inv_push (h : EditInv pf others docId s) {row row' : Memory} {textChanged : Bool}
    (hpc : s.pc side = .flushed row textChanged)
    (hpcs : ∀ other, s'.pc other = if other = side then .called row row' else s.pc other)
    (hstored : s'.stored = s.stored) (hpending : s'.pending = s.pending)
    (hend : PatchEnd docId s.docs row textChanged row' s'.docs) (hcall : CallOf row row')
    (hdel : row'.deletedAt = row.deletedAt) : EditInv pf others docId s' := by
  have hext : row.externalId = some docId := by
    have hso := h.sound side
    rwa [hpc] at hso
  obtain ⟨hnewest, hlock, htext⟩ := h.call_row hpcs hstored hpending
  have hnotdel : ¬ (EditPc.called row row').deleting := fun h => h.2 (hdel.trans h.1)
  have hgone : s'.docs docId = none ↔ s.docs docId = none := by
    cases hend with
    | absent hdocs hdocs' => rw [hdocs']
    | patched doc hdocs hdocs' => simp [hdocs, hdocs']
  obtain ⟨hsound, hloaded, hflushed, hcaller⟩ := h.late_move hpcs rfl ⟨hext, hcall⟩
  constructor
  case storedId =>
    rw [hstored]; exact h.storedId
  case newestId =>
    rw [hnewest]; exact h.newestId
  case storedAdmits =>
    rw [hstored]; exact h.storedAdmits
  case newestAdmits =>
    rw [hnewest]; exact h.newestAdmits
  case sound => exact hsound
  case lock => exact hlock
  case loaded => exact hloaded
  case flushed => exact hflushed
  case text => exact htext
  case content =>
    intro doc hdoc
    rw [hnewest]
    cases hend with
    | absent hdocs hdocs' => simp [hdocs', hdocs] at hdoc
    | patched doc₀ hdocs hdocs' =>
      cases hdocs'.symm.trans hdoc
      cases textChanged with
      | true => exact Or.inl (h.text side row hpc).2.symm
      | false =>
        rw [exists_pc (P := fun pc => pc.pushesText = true) hpcs
          (by simp [EditPc.pushesText, hpc])]
        exact h.content doc₀ hdocs
  case gone =>
    rw [exists_pc hpcs (iff_of_false hnotdel (by simp [hpc, EditPc.deleting])), hnewest, hgone]
    exact h.gone
  case caller => exact fun _ => hcaller
  case status =>
    have hactive : ¬ ∀ other, (s.pc other).late = true := by grind [EditPc.late]
    obtain ⟨hsstatus, hnstatus, hold⟩ := h.status.resolve_left hactive
    cases hend with
    | absent hdocs hdocs' hstatus =>
      -- the other request is the delete that has made its client call
      obtain ⟨other, hlate⟩ := h.caller hdocs
      have hother : (s.pc (!side)).late = true := by
        rcases side_cases side other with rfl | rfl
        · rw [hpc] at hlate
          cases hlate
        · simpa using hlate
      exact Or.inl (forall_side side (by simp [hpcs, EditPc.late]) (by simpa [hpcs] using hother))
    | patched doc hdocs hdocs' hstatus =>
      refine Or.inr ⟨hstored ▸ hsstatus, hnewest ▸ hnstatus, fun other m hm => ?_⟩
      have hold' := hold other
      have hside := hold side
      grind [EditPc.copies]

/-- A delete makes its client call. -/
theorem inv_marked (h : EditInv pf others docId s) {loaded current row : Memory}
    (hpc : s.pc side = .marked loaded current)
    (hpcs : ∀ other, s'.pc other = if other = side then .called loaded row else s.pc other)
    (hstored : s'.stored = s.stored) (hpending : s'.pending = s.pending)
    (hdocs : s'.docs docId = none)
    (hrow : row = { current with externalStatus := .synced, externalError := none }) :
    EditInv pf others docId s' := by
  have hso := h.sound side
  rw [hpc] at hso
  obtain ⟨hext, hlive, at_, hcurrent⟩ := hso
  have hdead : ¬ row.live := by simp [hrow, hcurrent]
  have hcall : CallOf loaded row := by
    rw [hrow, hcurrent] at hdead ⊢
    exact ⟨rfl, rfl, rfl, rfl, rfl, rfl, rfl, rfl, rfl, rfl, rfl, Or.inr ⟨hlive, hdead⟩⟩
  obtain ⟨hnewest, hlock, htext⟩ := h.call_row hpcs hstored hpending
  obtain ⟨hsound, hloaded, hflushed, hcaller⟩ := h.late_move hpcs rfl ⟨hext, hcall⟩
  constructor
  case storedId =>
    rw [hstored]; exact h.storedId
  case newestId =>
    rw [hnewest]; exact h.newestId
  case storedAdmits =>
    rw [hstored]; exact h.storedAdmits
  case newestAdmits =>
    rw [hnewest]; exact h.newestAdmits
  case sound => exact hsound
  case lock => exact hlock
  case loaded => exact hloaded
  case flushed => exact hflushed
  case text => exact htext
  case content =>
    intro doc hdoc
    rw [hdocs] at hdoc
    cases hdoc
  case gone =>
    refine iff_of_true hdocs (Or.inr ⟨side, ?_⟩)
    rw [hpcs, if_pos rfl]
    exact ⟨hlive, hdead⟩
  case caller => exact fun _ => hcaller
  case status =>
    have hactive : ¬ ∀ other, (s.pc other).late = true := by grind [EditPc.late]
    obtain ⟨hsstatus, hnstatus, hold⟩ := h.status.resolve_left hactive
    refine Or.inr ⟨hstored ▸ hsstatus, hnewest ▸ hnstatus, fun other m hm => ?_⟩
    have hold' := hold other
    have hside := hold side
    have hsynced : row.externalStatus = .synced := by rw [hrow]
    grind [EditPc.copies]

/-- The flush of a delete takes over from the delete. -/
theorem EditInv.gone_called (h : EditInv pf others docId s)
    (hpcs : ∀ other, s'.pc other = if other = side then .closing else s.pc other)
    (hnlive : s'.newest.live ↔ s.newest.live ∧ ¬ (s.pc side).deleting) :
    s.docs docId = none ↔ ¬ s'.newest.live ∨ ∃ other, (s'.pc other).deleting := by
  have hclosing : ¬ EditPc.closing.deleting := id
  rw [hnlive]
  constructor
  · intro hnone
    rcases h.gone.1 hnone with hdead | ⟨other, hother⟩
    · exact Or.inl fun hlive => hdead hlive.1
    · by_cases ho : other = side
      · exact Or.inl fun hlive => hlive.2 (ho ▸ hother)
      · exact Or.inr ⟨other, by rwa [hpcs, if_neg ho]⟩
  · rintro (hdead | ⟨other, hother⟩)
    · by_cases hlive : s.newest.live
      · exact h.gone.2 (Or.inr ⟨side, by_contra fun hd => hdead ⟨hlive, hd⟩⟩)
      · exact h.gone.2 (Or.inl hlive)
    · have ho : other ≠ side := by
        rintro rfl
        rw [hpcs, if_pos rfl] at hother
        exact hclosing hother
      rw [hpcs, if_neg ho] at hother
      exact h.gone.2 (Or.inr ⟨other, hother⟩)

/-- The flush of `db.commit()`. -/
theorem inv_called (h : EditInv pf others docId s) {loaded current : Memory}
    (hpc : s.pc side = .called loaded current)
    (hw : Flushed pf others s s' side loaded current .closing) : EditInv pf others docId s' := by
  have hso := h.sound side
  rw [hpc] at hso
  obtain ⟨hext, hcall⟩ := hso
  have hstored := hw.stored
  have hdocs := hw.docs
  have hpcs := hw.pc
  have hnid : s'.newest.externalId = s.newest.externalId := by
    simp [hw.newest, writeColumns, hcall.externalId]
  have hntext : s'.newest.text = s.newest.text := by
    simp [hw.newest, writeColumns, hcall.text]
  have hnlive : s'.newest.live ↔ s.newest.live ∧ ¬ (s.pc side).deleting := by
    rw [hw.newest, deletedAt_write_call hcall, hpc]
    rfl
  obtain ⟨hsound, hloaded, hflushed, hcaller⟩ := h.late_move hpcs rfl trivial
  constructor
  case storedId =>
    rw [hstored]; exact h.storedId
  case newestId =>
    rw [hnid]; exact h.newestId
  case storedAdmits =>
    rw [hstored]; exact h.storedAdmits
  case newestAdmits =>
    rw [hw.newest]; exact admits_write_call hcall h.newestAdmits
  case sound => exact hsound
  case lock => exact h.lock_flushed hw rfl (by simp)
  case loaded => exact hloaded
  case flushed => exact hflushed
  case text =>
    intro other version hv
    have hother : s.pc other = .flushed version true := by grind
    refine h.text_flushed hw ?_ hother
    rintro rfl
    rw [hpc] at hother
    cases hother
  case content =>
    intro doc hdoc
    rw [exists_pc (P := fun pc => pc.pushesText = true) hpcs (by simp [EditPc.pushesText, hpc]),
      hntext]
    exact h.content doc (hdocs ▸ hdoc)
  case gone =>
    rw [hdocs]
    exact h.gone_called hpcs hnlive
  case caller => exact fun _ => hcaller
  case status =>
    rcases h.status with hlate | ⟨hsstatus, hnstatus, hold⟩
    · exact Or.inl fun other => by have := hlate other; grind [EditPc.late]
    · have hside := hold side
      refine Or.inr ⟨hstored ▸ hsstatus, ?_, fun other m hm => ?_⟩
      · have hl : loaded.externalStatus = .synced := hside _ (by simp [hpc, EditPc.copies])
        have hc : current.externalStatus = .synced := hside _ (by simp [hpc, EditPc.copies])
        simp [hw.newest, writeColumns, hl, hc, hnstatus]
      · have hold' := hold other
        grind [EditPc.copies]

/-- COMMIT. -/
theorem inv_commit (h : EditInv pf others docId s) (hpc : s.pc side = .closing)
    (hpcs : ∀ other, s'.pc other = if other = side then .finished else s.pc other)
    (hdocs : s'.docs = s.docs) (hnewest : s'.newest = s.newest)
    (hstored : s'.stored = s.stored ∨ s'.stored = s.newest)
    (hpending : ∀ owner row, s'.pending = some (owner, row) ↔
      owner ≠ side ∧ s.pending = some (owner, row)) : EditInv pf others docId s' := by
  obtain ⟨hsound, hloaded, hflushed, hcaller⟩ := h.late_move hpcs rfl trivial
  constructor
  case storedId =>
    rcases hstored with hs | hs <;> rw [hs]
    · exact h.storedId
    · exact h.newestId
  case newestId =>
    rw [hnewest]; exact h.newestId
  case storedAdmits =>
    rcases hstored with hs | hs <;> rw [hs]
    · exact h.storedAdmits
    · exact h.newestAdmits
  case newestAdmits =>
    rw [hnewest]; exact h.newestAdmits
  case sound => exact hsound
  case lock =>
    intro other version hv
    obtain ⟨ho, hv⟩ := (hpending other version).1 hv
    have hold := h.lock other version hv
    grind
  case loaded => exact hloaded
  case flushed => exact hflushed
  case text =>
    intro other version hv
    have hother : s.pc other = .flushed version true := by grind
    have ho : other ≠ side := by
      rintro rfl
      rw [hpc] at hother
      cases hother
    rw [hpending, hnewest]
    exact ⟨⟨ho, (h.text other version hother).1⟩, (h.text other version hother).2⟩
  case content =>
    intro doc hdoc
    rw [exists_pc (P := fun pc => pc.pushesText = true) hpcs (by simp [EditPc.pushesText, hpc]),
      hnewest]
    exact h.content doc (hdocs ▸ hdoc)
  case gone =>
    rw [exists_pc hpcs (iff_of_false id (by simp [hpc, EditPc.deleting])), hdocs, hnewest]
    exact h.gone
  case caller => exact fun _ => hcaller
  case status =>
    rcases h.status with hlate | ⟨hsstatus, hnstatus, hold⟩
    · exact Or.inl fun other => by have := hlate other; grind [EditPc.late]
    · refine Or.inr ⟨?_, hnewest ▸ hnstatus, fun other m hm => ?_⟩
      · rcases hstored with hs | hs <;> rw [hs]
        · exact hsstatus
        · exact hnstatus
      · have hold' := hold other
        grind [EditPc.copies]

/-! ## One move -/

/-- A flush before the client call raises only with no lock held. -/
theorem pending_none_of_early (h : EditInv pf others docId s) (hearly : (s.pc side).early = true)
    (hown : ∀ owner row, s.pending = some (owner, row) → owner = side) : s.pending = none := by
  cases hp : s.pending with
  | none => rfl
  | some version =>
    have hlock := (h.lock version.1 version.2 hp).1
    rw [hown version.1 version.2 hp, hearly] at hlock
    cases hlock

/-- The flush of `db.commit()` never raises. -/
theorem called_cases (h : EditInv pf others docId s) {loaded current : Memory}
    (hpc : s.pc side = .called loaded current) :
    s.flushTo pf others side loaded current .closing = s ∨
      Flushed pf others s (s.flushTo pf others side loaded current .closing) side loaded current
        .closing := by
  have hso := h.sound side
  rw [hpc] at hso
  rcases flushTo_cases pf others s side loaded current .closing with
    ⟨_, hblocked⟩ | ⟨_, hno, _⟩ | hw
  · exact Or.inl hblocked
  · rw [admits_write_call hso.2 h.newestAdmits] at hno
    cases hno
  · exact Or.inr hw

/-- A request that raises or has nothing to do. -/
theorem inv_ended (h : EditInv pf others docId s) (hearly : (s.pc side).early = true) :
    EditInv pf others docId (s.goto side .finished) := by
  refine inv_goto_early h hearly (Or.inr rfl) trivial ?_ ?_
  · simp [EditPc.loaded?]
  · simp [EditPc.copies]

theorem inv_requested (pf : Platform) (h : EditInv pf others docId s) (turn : EditTurn)
    {req : EditRequest} (hpc : s.pc turn.side = .requested req) :
    EditInv pf others docId (editMove pf others s turn) := by
  have hearly : (s.pc turn.side).early = true := by rw [hpc]; rfl
  have hended : EditInv pf others docId (s.goto turn.side .finished) := inv_ended h hearly
  cases req with
  | update args =>
    simp only [editMove, hpc]
    split
    · exact hended
    split
    · exact hended
    · rename_i row textChanged hpatch
      have hp := applyPatch_patchOf hpatch
      refine inv_goto_early h hearly (Or.inl rfl) ⟨h.storedId, hp⟩ ?_ ?_
      · rintro _ ⟨⟩
        rfl
      · intro hstatus m hm
        rcases List.mem_pair.1 hm with rfl | rfl
        · exact hstatus
        · exact hp.externalStatus.trans hstatus
  | delete =>
    simp only [editMove, hpc]
    split
    · exact hended
    · rename_i hlive
      have hlive : s.stored.live := by simpa using hlive
      refine inv_goto_early h hearly (Or.inl rfl) ⟨h.storedId, hlive, turn.env.now, rfl⟩ ?_ ?_
      · rintro _ ⟨⟩
        rfl
      · intro hstatus m hm
        rcases List.mem_pair.1 hm with rfl | rfl <;> exact hstatus

theorem inv_commit_move (h : EditInv pf others docId s) (hpc : s.pc side = .closing) :
    EditInv pf others docId (s.commit side) := by
  unfold Editing.commit
  cases hp : s.pending with
  | none =>
    have hnone : ∀ owner row, (s.goto side .finished).pending = some (owner, row) ↔
        owner ≠ side ∧ s.pending = some (owner, row) := by simp [Editing.goto, hp]
    exact inv_commit h hpc (goto_pc s side .finished) rfl rfl (Or.inl rfl) hnone
  | some version =>
    obtain ⟨owner, row⟩ := version
    simp only
    split
    · rename_i howner
      refine inv_commit h hpc (goto_pc s side .finished) rfl ?_ (Or.inr ?_) ?_
      · exact (newest_of_pending hp).symm
      · exact (newest_of_pending hp).symm
      · intro other version
        simp only [hp, reduceCtorEq, Option.some.injEq, Prod.mk.injEq, false_iff, not_and]
        exact fun hne heq => absurd (heq.symm.trans howner) hne
    · rename_i howner
      refine inv_commit h hpc (goto_pc s side .finished) rfl rfl (Or.inl rfl) ?_
      intro other version
      simp only [Editing.goto, hp, Option.some.injEq, Prod.mk.injEq, iff_and_self, and_imp]
      exact fun heq _ => heq ▸ howner

/-- **One move keeps the invariant.** -/
theorem editInv_move (pf : Platform) (h : EditInv pf others docId s) (turn : EditTurn) :
    EditInv pf others docId (editMove pf others s turn) := by
  cases hpc : s.pc turn.side with
  | requested req => exact inv_requested pf h turn hpc
  | patched loaded current textChanged =>
    have hearly : (s.pc turn.side).early = true := by rw [hpc]; rfl
    simp only [editMove, hpc]
    rcases flushTo_cases pf others s turn.side loaded current (.flushed current textChanged) with
      ⟨_, hblocked⟩ | ⟨hown, _, hraised⟩ | hw
    · rw [hblocked]
      exact h
    · have hnone := pending_none_of_early h hearly hown
      rw [hraised, ← hnone]
      exact inv_ended h hearly
    · exact inv_patched h hpc hw
  | flushed row textChanged =>
    have hext : row.externalId = some docId := by
      have hso := h.sound turn.side
      rwa [hpc] at hso
    obtain ⟨hend, hcall, hdel⟩ := push_end (s := s) turn textChanged hext
    simp only [editMove, hpc]
    exact inv_push h hpc (goto_pc s turn.side _) rfl rfl hend hcall hdel
  | marked loaded current =>
    have hso := h.sound turn.side
    rw [hpc] at hso
    obtain ⟨hext, _, at_, hcurrent⟩ := hso
    have hcext : current.externalId = some docId := by rw [hcurrent]; exact hext
    obtain ⟨hrow, hdocs⟩ := delete_end (s := s) turn current docId
    simp only [editMove, hpc, hcext]
    exact inv_marked h hpc (goto_pc s turn.side _) rfl rfl hdocs hrow
  | called loaded current =>
    simp only [editMove, hpc]
    rcases called_cases h hpc with hblocked | hw
    · rw [hblocked]
      exact h
    · exact inv_called h hpc hw
  | closing =>
    simp only [editMove, hpc]
    exact inv_commit_move h hpc
  | finished =>
    simp only [editMove, hpc]
    exact h

theorem editInv_start {row : Memory} {docs : String → Option Doc} (first second : EditRequest)
    (hlive : row.live) (hstatus : row.externalStatus = .synced) (hext : row.externalId = some docId)
    (hmirrored : row.Mirrored docs) (hadmits : admits pf others row = true) :
    EditInv pf others docId (editStart row docs first second) := by
  have hdoc : docs docId = some ⟨row.text, buildMetadata row⟩ := by
    simpa [hext] using hmirrored hlive hstatus
  have hnewest : (editStart row docs first second).newest = row := rfl
  constructor
  case storedId => exact hext
  case newestId => exact hext
  case storedAdmits => exact hadmits
  case newestAdmits => exact hadmits
  case sound => exact fun _ => trivial
  case lock => exact fun _ _ h => nomatch h
  case loaded => exact fun _ _ h => nomatch h
  case flushed => exact fun _ _ _ h => nomatch h
  case text => exact fun _ _ h => nomatch h
  case content =>
    intro doc h
    cases hdoc.symm.trans h
    exact Or.inl rfl
  case gone =>
    refine iff_of_false (fun h => ?_) ?_
    · cases hdoc.symm.trans h
    · rintro (h | ⟨_, h⟩)
      · exact h hlive
      · exact h
  case caller =>
    intro h
    cases hdoc.symm.trans h
  case status => exact Or.inr ⟨hstatus, hstatus, fun _ _ h => nomatch h⟩

end MeJournal
