import MeJournal.Memory.EditInvariant

/-!
# Stale copies of a row that two requests edit

* `fresh_move` — a move that is no stale patch keeps document and row together.
* `disagrees_of_stale` — after a stale patch nothing the two requests still do repairs it.
* `agrees_iff_no_stalePatch` — when both requests have finished, row and document agree exactly
  when no patch among their moves was stale.
-/

namespace MeJournal

variable {pf : Platform} {others : List Memory} {docId : String} {s s' : Editing} {side : Bool}

/-! ## Without stale patches -/

theorem EditPc.late_of {pc : EditPc} (hearly : pc.early = false) (hpushing : pc.pushing = false) :
    pc.late = true := by
  cases pc <;> simp_all [EditPc.early, EditPc.pushing, EditPc.late]

theorem EditPc.not_pushing_of_early {pc : EditPc} (h : pc.early = true) : pc.pushing = false := by
  cases pc <;> simp_all [EditPc.early, EditPc.pushing]

/-- Nothing is `unsynced`, and the document has the row's metadata or is about to get it. -/
structure Fresh (docId : String) (s : Editing) : Prop where
  stored : s.stored.externalStatus = .synced
  newest : s.newest.externalStatus = .synced
  copies : ∀ side, ∀ m ∈ (s.pc side).copies, m.externalStatus = .synced
  metadata : ∀ doc, s.docs docId = some doc →
    doc.metadata = buildMetadata s.newest ∨ ∃ side, (s.pc side).pushing = true

theorem fresh_copies (hf : Fresh docId s) {next : EditPc}
    (hpcs : ∀ other, s'.pc other = if other = side then next else s.pc other)
    (hnext : ∀ m ∈ next.copies, m.externalStatus = .synced) :
    ∀ other, ∀ m ∈ (s'.pc other).copies, m.externalStatus = .synced := by
  intro other m hm
  rw [hpcs] at hm
  split at hm
  · exact hnext m hm
  · exact hf.copies other m hm

/-- A request that goes on without pushing and without a write. -/
theorem fresh_goto (hf : Fresh docId s) {next : EditPc} (hpc : (s.pc side).pushing = false)
    (hnext : next.pushing = false) (hcopies : ∀ m ∈ next.copies, m.externalStatus = .synced) :
    Fresh docId (s.goto side next) := by
  have hpcs := goto_pc s side next
  refine ⟨hf.stored, hf.newest, fresh_copies hf hpcs hcopies, fun doc hdoc => ?_⟩
  rw [exists_pc (P := fun pc => pc.pushing = true) hpcs (by simp [hpc, hnext])]
  exact hf.metadata doc hdoc

/-- A flush that writes no status. -/
theorem fresh_flushed (hf : Fresh docId s) {loaded current : Memory} {next : EditPc}
    (hw : Flushed pf others s s' side loaded current next)
    (hl : loaded.externalStatus = .synced) (hc : current.externalStatus = .synced)
    (hnext : ∀ m ∈ next.copies, m.externalStatus = .synced)
    (hmetadata : ∀ doc, s.docs docId = some doc →
      doc.metadata = buildMetadata s'.newest ∨ ∃ other, (s'.pc other).pushing = true) :
    Fresh docId s' where
  stored := hw.stored ▸ hf.stored
  newest := by simp [hw.newest, writeColumns, hl, hc, hf.newest]
  copies := fresh_copies hf hw.pc hnext
  metadata := fun doc hdoc => hmetadata doc (hw.docs ▸ hdoc)

theorem fresh_commit (hf : Fresh docId s) (hpc : s.pc side = .closing) :
    Fresh docId (s.commit side) := by
  have hgoto : Fresh docId (s.goto side .finished) :=
    fresh_goto hf (by rw [hpc]; rfl) rfl (by simp [EditPc.copies])
  unfold Editing.commit
  cases hp : s.pending with
  | none => exact hgoto
  | some version =>
    have hnewest : s.newest = version.2 := newest_of_pending hp
    simp only
    split
    · refine ⟨hnewest ▸ hf.newest, hnewest ▸ hf.newest, hgoto.copies, fun doc hdoc => ?_⟩
      have hmetadata := hgoto.metadata doc hdoc
      rw [goto_newest, hnewest] at hmetadata
      exact hmetadata
    · exact hgoto

/-- The client's `patch` of a request: not stale, so the document is there, and it gets the row's
metadata unless the other request is about to push its own. -/
theorem fresh_push (pf : Platform) (h : EditInv pf others docId s) (hf : Fresh docId s)
    {turn : EditTurn} {row : Memory} {textChanged : Bool}
    (hpc : s.pc turn.side = .flushed row textChanged) (hstale : ¬ StalePatch s turn) :
    Fresh docId (editMove pf others s turn) := by
  have hcopies := hf.copies turn.side
  rw [hpc] at hcopies
  have hrow : row.externalStatus = .synced := hcopies _ (by simp [EditPc.copies])
  have hext : row.externalId = some docId := by
    have hso := h.sound turn.side
    rwa [hpc] at hso
  have hnot : ¬ (s.docs docId = none ∨
      ((s.pc (!turn.side)).pushing = false ∧ buildMetadata row ≠ buildMetadata s.newest)) := by
    intro hbad
    exact hstale ⟨row, textChanged, hpc, by rwa [hext]⟩
  obtain ⟨hend, _, _⟩ := push_end (s := s) turn textChanged hext
  simp only [editMove, hpc]
  cases hend with
  | absent hdocs => exact absurd (Or.inl hdocs) hnot
  | patched doc hdocs hdocs' hstatus =>
    refine ⟨hf.stored, hf.newest, fresh_copies hf (goto_pc s turn.side _) ?_,
      fun doc' hdoc' => ?_⟩
    · intro m hm
      rcases List.mem_pair.1 hm with rfl | rfl
      · exact hrow
      · exact hstatus
    · cases hdocs'.symm.trans hdoc'
      by_cases hpush : (s.pc (!turn.side)).pushing = true
      · exact Or.inr ⟨!turn.side, by simpa using hpush⟩
      · refine Or.inl (by_contra fun hne => hnot (Or.inr ⟨by simpa using hpush, hne⟩))

/-- A SELECT, and what follows it in the same move. -/
theorem fresh_requested (pf : Platform) (hf : Fresh docId s) (turn : EditTurn) {req : EditRequest}
    (hpc : s.pc turn.side = .requested req) : Fresh docId (editMove pf others s turn) := by
  have hpush : (s.pc turn.side).pushing = false := by rw [hpc]; rfl
  have hended : Fresh docId (s.goto turn.side .finished) :=
    fresh_goto hf hpush rfl (by simp [EditPc.copies])
  cases req with
  | update args =>
    simp only [editMove, hpc]
    split
    · exact hended
    split
    · exact hended
    · rename_i row textChanged hpatch
      refine fresh_goto hf hpush rfl fun m hm => ?_
      rcases List.mem_pair.1 hm with rfl | rfl
      · exact hf.stored
      · exact (applyPatch_patchOf hpatch).externalStatus.trans hf.stored
  | delete =>
    simp only [editMove, hpc]
    split
    · exact hended
    · refine fresh_goto hf hpush rfl fun m hm => ?_
      rcases List.mem_pair.1 hm with rfl | rfl <;> exact hf.stored

/-- The client call of a delete. -/
theorem fresh_marked (pf : Platform) (h : EditInv pf others docId s) (hf : Fresh docId s)
    (turn : EditTurn) {loaded current : Memory} (hpc : s.pc turn.side = .marked loaded current) :
    Fresh docId (editMove pf others s turn) := by
  have hcopies := hf.copies turn.side
  have hso := h.sound turn.side
  rw [hpc] at hcopies hso
  obtain ⟨hext, _, at_, hcurrent⟩ := hso
  have hcext : current.externalId = some docId := by rw [hcurrent]; exact hext
  have hl : loaded.externalStatus = .synced := hcopies _ (by simp [EditPc.copies])
  obtain ⟨hrow, hdocs⟩ := delete_end (s := s) turn current docId
  simp only [editMove, hpc, hcext]
  refine ⟨hf.stored, hf.newest, fresh_copies hf (goto_pc s turn.side _) ?_, fun doc hdoc => ?_⟩
  · intro m hm
    rcases List.mem_pair.1 hm with rfl | rfl
    · exact hl
    · rw [hrow]
  · cases hdocs.symm.trans hdoc

/-- **A move that is no stale patch** keeps document and row together. -/
theorem fresh_move (pf : Platform) (h : EditInv pf others docId s) (hf : Fresh docId s)
    (turn : EditTurn) (hstale : ¬ StalePatch s turn) :
    Fresh docId (editMove pf others s turn) := by
  have hcopies := hf.copies turn.side
  cases hpc : s.pc turn.side with
  | requested req => exact fresh_requested pf hf turn hpc
  | patched loaded current textChanged =>
    rw [hpc] at hcopies
    have hl : loaded.externalStatus = .synced := hcopies _ (by simp [EditPc.copies])
    have hc : current.externalStatus = .synced := hcopies _ (by simp [EditPc.copies])
    have hearly : (s.pc turn.side).early = true := by rw [hpc]; rfl
    simp only [editMove, hpc]
    rcases flushTo_cases pf others s turn.side loaded current (.flushed current textChanged) with
      ⟨_, hblocked⟩ | ⟨hown, _, hraised⟩ | hw
    · rw [hblocked]
      exact hf
    · have hnone := pending_none_of_early h hearly hown
      rw [hraised, ← hnone]
      exact fresh_goto hf (EditPc.not_pushing_of_early hearly) rfl (by simp [EditPc.copies])
    · refine fresh_flushed hf hw hl hc (by simpa [EditPc.copies] using hc) fun _ _ => ?_
      exact Or.inr ⟨turn.side, by simp [hw.pc, EditPc.pushing]⟩
  | flushed row textChanged =>
    exact fresh_push pf h hf hpc hstale
  | marked loaded current => exact fresh_marked pf h hf turn hpc
  | called loaded current =>
    rw [hpc] at hcopies
    have hso := h.sound turn.side
    rw [hpc] at hso
    have hl : loaded.externalStatus = .synced := hcopies _ (by simp [EditPc.copies])
    have hc : current.externalStatus = .synced := hcopies _ (by simp [EditPc.copies])
    simp only [editMove, hpc]
    rcases called_cases h hpc with hblocked | hw
    · rw [hblocked]
      exact hf
    · refine fresh_flushed hf hw hl hc (by simp [EditPc.copies]) fun doc hdoc => ?_
      rw [exists_pc (P := fun pc => pc.pushing = true) hw.pc (by simp [hpc, EditPc.pushing]),
        hw.newest, buildMetadata_write_call hso.2]
      exact hf.metadata doc hdoc
  | closing =>
    simp only [editMove, hpc]
    exact fresh_commit hf hpc
  | finished =>
    simp only [editMove, hpc]
    exact hf

/-! ## After a stale patch -/

/-- Both client calls are made, the document is gone, and the row is or will be `unsynced`. -/
structure LeavesUnsynced (docId : String) (s : Editing) : Prop where
  late : ∀ side, (s.pc side).late = true
  gone : s.docs docId = none
  unsynced : s.newest.externalStatus = .unsynced ∨ ∃ side loaded current,
    s.pc side = .called loaded current ∧ loaded.externalStatus ≠ .unsynced ∧
      current.externalStatus = .unsynced
  writes : ∀ side loaded current, s.pc side = .called loaded current →
    current.externalStatus = loaded.externalStatus ∨ current.externalStatus = .unsynced

/-- Both client calls are made, the document has other metadata than the row, and the row stays
`synced`. -/
structure LeavesStale (docId : String) (s : Editing) : Prop where
  late : ∀ side, (s.pc side).late = true
  stale : ∃ doc, s.docs docId = some doc ∧ doc.metadata ≠ buildMetadata s.newest
  synced : s.newest.externalStatus = .synced
  writes : ∀ side loaded current, s.pc side = .called loaded current →
    current.externalStatus = .synced

def Disagrees (docId : String) (s : Editing) : Prop := LeavesUnsynced docId s ∨ LeavesStale docId s

/-- What a move does when both client calls are made. -/
inductive Settles (pf : Platform) (others : List Memory) (s : Editing) (side : Bool)
    (s' : Editing) : Prop
  | same (hs' : s' = s)
  | flushed {loaded current : Memory} (hpc : s.pc side = .called loaded current)
      (hw : Flushed pf others s s' side loaded current .closing)
  | committed (hpc : s.pc side = .closing)
      (hpcs : ∀ other, s'.pc other = if other = side then .finished else s.pc other)
      (hdocs : s'.docs = s.docs) (hnewest : s'.newest = s.newest)

theorem settles_move (pf : Platform) (h : EditInv pf others docId s) (turn : EditTurn)
    (hlate : (s.pc turn.side).late = true) :
    Settles pf others s turn.side (editMove pf others s turn) := by
  cases hpc : s.pc turn.side with
  | requested | patched | flushed | marked =>
    rw [hpc] at hlate
    cases hlate
  | called loaded current =>
    simp only [editMove, hpc]
    rcases called_cases h hpc with hblocked | hw
    · exact .same hblocked
    · exact .flushed hpc hw
  | closing =>
    simp only [editMove, hpc]
    refine .committed hpc ?_ ?_ ?_
    all_goals
      unfold Editing.commit
      cases hp : s.pending with
      | none => simp [Editing.goto, Function.update_apply, newest_of_pending_none, hp]
      | some version =>
        simp only
        split <;> simp [Editing.goto, Function.update_apply, Editing.newest, hp]
  | finished =>
    simp only [editMove, hpc]
    exact .same rfl

theorem late_of_settles {next : EditPc} (hnext : next.late = true)
    (hpcs : ∀ other, s'.pc other = if other = side then next else s.pc other)
    (h : ∀ other, (s.pc other).late = true) : ∀ other, (s'.pc other).late = true := by
  intro other
  rw [hpcs]
  split
  · exact hnext
  · exact h other

/-- A `called` request of the next state is one of this state. -/
theorem called_of_settles {next : EditPc} (hnext : next = .closing ∨ next = .finished)
    (hpcs : ∀ other, s'.pc other = if other = side then next else s.pc other) {other : Bool}
    {loaded current : Memory} (h : s'.pc other = .called loaded current) :
    s.pc other = .called loaded current := by
  rw [hpcs] at h
  split at h
  · rcases hnext with rfl | rfl <;> cases h
  · exact h

theorem leavesUnsynced_settles (hl : LeavesUnsynced docId s)
    (hs : Settles pf others s side s') : LeavesUnsynced docId s' := by
  cases hs with
  | same hs' => rwa [hs']
  | @flushed loaded current hpc hw =>
    have hstatus : s'.newest.externalStatus =
        writeColumn loaded.externalStatus current.externalStatus s.newest.externalStatus := by
      rw [hw.newest]
      rfl
    refine ⟨late_of_settles rfl hw.pc hl.late, hw.docs ▸ hl.gone, ?_, fun other l c hc =>
      hl.writes other l c (called_of_settles (Or.inl rfl) hw.pc hc)⟩
    rw [hstatus]
    rcases hl.unsynced with hnewest | ⟨other, l, c, hc, hne, hun⟩
    · refine Or.inl ?_
      rcases hl.writes side loaded current hpc with hsame | hun
      · rw [hsame, writeColumn_unchanged, hnewest]
      · unfold writeColumn
        split
        · exact hnewest
        · exact hun
    · by_cases ho : other = side
      · rw [ho, hpc] at hc
        cases hc
        have hchanged : current.externalStatus ≠ loaded.externalStatus := fun he =>
          hne (he.symm.trans hun)
        exact Or.inl (by rw [writeColumn, if_neg hchanged, hun])
      · exact Or.inr ⟨other, l, c, by rw [hw.pc, if_neg ho, hc], hne, hun⟩
  | committed hpc hpcs hdocs hnewest =>
    refine ⟨late_of_settles rfl hpcs hl.late, hdocs ▸ hl.gone, ?_, fun other l c hc =>
      hl.writes other l c (called_of_settles (Or.inr rfl) hpcs hc)⟩
    rw [hnewest]
    rcases hl.unsynced with hun | ⟨other, l, c, hc, hne, hun⟩
    · exact Or.inl hun
    · have ho : other ≠ side := by
        rintro rfl
        cases hpc.symm.trans hc
      exact Or.inr ⟨other, l, c, by rw [hpcs, if_neg ho, hc], hne, hun⟩

theorem leavesStale_settles (h : EditInv pf others docId s) (hl : LeavesStale docId s)
    (hs : Settles pf others s side s') : LeavesStale docId s' := by
  cases hs with
  | same hs' => rwa [hs']
  | @flushed loaded current hpc hw =>
    have hso := h.sound side
    rw [hpc] at hso
    refine ⟨late_of_settles rfl hw.pc hl.late, ?_, ?_, fun other l c hc =>
      hl.writes other l c (called_of_settles (Or.inl rfl) hw.pc hc)⟩
    · rw [hw.docs, hw.newest, buildMetadata_write_call hso.2]
      exact hl.stale
    · have hstatus : s'.newest.externalStatus =
          writeColumn loaded.externalStatus current.externalStatus s.newest.externalStatus := by
        rw [hw.newest]
        rfl
      rw [hstatus, hl.writes side loaded current hpc, hl.synced, writeColumn]
      split <;> rfl
  | committed hpc hpcs hdocs hnewest =>
    refine ⟨late_of_settles rfl hpcs hl.late, ?_, hnewest ▸ hl.synced, fun other l c hc =>
      hl.writes other l c (called_of_settles (Or.inr rfl) hpcs hc)⟩
    rw [hdocs, hnewest]
    exact hl.stale

theorem disagrees_move (pf : Platform) (h : EditInv pf others docId s) (turn : EditTurn)
    (hd : Disagrees docId s) : Disagrees docId (editMove pf others s turn) := by
  rcases hd with hl | hl
  · exact Or.inl (leavesUnsynced_settles hl (settles_move pf h turn (hl.late turn.side)))
  · exact Or.inr (leavesStale_settles h hl (settles_move pf h turn (hl.late turn.side)))

/-- **A stale patch decides the end**: both client calls are made, and nothing the requests
still write repairs the row or the document. -/
theorem disagrees_of_stale (pf : Platform) (h : EditInv pf others docId s) {turn : EditTurn}
    (hstale : StalePatch s turn) : Disagrees docId (editMove pf others s turn) := by
  obtain ⟨row, textChanged, hpc, hwhy⟩ := hstale
  have hext : row.externalId = some docId := by
    have hso := h.sound turn.side
    rwa [hpc] at hso
  rw [hext, Option.bind_some] at hwhy
  have hactive : ¬ ∀ side, (s.pc side).late = true := fun hlate => by
    have hside := hlate turn.side
    rw [hpc] at hside
    cases hside
  obtain ⟨_, hnewest, hcopies⟩ := h.status.resolve_left hactive
  have hrow : row.externalStatus = .synced := hcopies turn.side _ (by simp [hpc, EditPc.copies])
  -- the other request has made its client call
  have hother : (s.pc (!turn.side)).late = true := by
    rcases hwhy with hnone | ⟨hpush, hne⟩
    · obtain ⟨other, hlate⟩ := h.caller hnone
      rcases side_cases turn.side other with rfl | ho
      · rw [hpc] at hlate
        cases hlate
      · rw [← ho, Bool.not_not]
        exact hlate
    · refine EditPc.late_of (by_contra fun hearly => hne ?_) hpush
      exact h.flushed turn.side row textChanged hpc (by simpa using hearly)
  obtain ⟨hend, _, _⟩ := push_end (s := s) turn textChanged hext
  simp only [editMove, hpc]
  have hpcs := goto_pc s turn.side
    (.called row (pushRow backend turn.env row textChanged (s.world turn)).1)
  have hlate : ∀ side, ((s.goto turn.side
      (.called row (pushRow backend turn.env row textChanged (s.world turn)).1)).pc side).late =
        true := forall_side turn.side (by simp [EditPc.late]) (by simpa using hother)
  cases hend with
  | absent hdocs hdocs' hstatus =>
    refine Or.inl ⟨hlate, hdocs' ▸ hdocs, Or.inr ⟨turn.side, row, _, by simp, by simp [hrow],
      hstatus⟩, fun other l c hc => ?_⟩
    rw [show Editing.pc _ other = _ from hpcs other] at hc
    split at hc
    · cases hc
      exact Or.inr hstatus
    · have hl := hcopies other l (by simp [hc, EditPc.copies])
      have hc := hcopies other c (by simp [hc, EditPc.copies])
      exact Or.inl (hc.trans hl.symm)
  | patched doc hdocs hdocs' hstatus =>
    have hne : buildMetadata row ≠ buildMetadata s.newest := by
      rcases hwhy with hnone | ⟨_, hne⟩
      · rw [hdocs] at hnone
        cases hnone
      · exact hne
    refine Or.inr ⟨hlate, ⟨_, hdocs', hne⟩, hnewest, fun other l c hc => ?_⟩
    rw [show Editing.pc _ other = _ from hpcs other] at hc
    split at hc
    · cases hc
      exact hstatus
    · exact hcopies other c (by simp [hc, EditPc.copies])

/-! ## The end of a run -/

/-- When both requests have finished, the row is the committed one, and its document is gone
exactly when it is deleted. -/
theorem finished_facts (h : EditInv pf others docId s) (hfinished : BothFinished s) :
    s.newest = s.stored ∧ (s.docs docId = none ↔ ¬ s.stored.live) := by
  have hpending : s.pending = none := by
    cases hp : s.pending with
    | none => rfl
    | some version => exact absurd (hfinished version.1) (h.lock version.1 version.2 hp).2
  have hnewest := newest_of_pending_none hpending
  refine ⟨hnewest, ?_⟩
  rw [h.gone, hnewest]
  constructor
  · rintro (hdead | ⟨side, hdel⟩)
    · exact hdead
    · rw [hfinished side] at hdel
      exact hdel.elim
  · exact Or.inl

theorem agrees_of_fresh (h : EditInv pf others docId s) (hf : Fresh docId s)
    (hfinished : BothFinished s) : Agrees s := by
  obtain ⟨hnewest, hgone⟩ := finished_facts h hfinished
  refine ⟨fun hlive _ => ?_, fun hdead => ⟨?_, by simp [hf.stored]⟩⟩
  · rw [h.storedId, Option.bind_some]
    cases hdoc : s.docs docId with
    | none => exact absurd hlive (hgone.1 hdoc)
    | some doc =>
      have hpushes : ∀ side, (s.pc side).pushesText ≠ true := fun side => by
        simp [hfinished side, EditPc.pushesText]
      have hpushing : ∀ side, (s.pc side).pushing ≠ true := fun side => by
        simp [hfinished side, EditPc.pushing]
      have hcontent : doc.content = s.newest.text :=
        (h.content doc hdoc).resolve_right (not_exists.2 hpushes)
      have hmetadata : doc.metadata = buildMetadata s.newest :=
        (hf.metadata doc hdoc).resolve_right (not_exists.2 hpushing)
      rw [hnewest] at hcontent hmetadata
      rw [← hcontent, ← hmetadata]
  · rw [h.storedId, Option.bind_some]
    exact hgone.2 hdead

theorem not_agrees_of_disagrees (h : EditInv pf others docId s) (hd : Disagrees docId s)
    (hfinished : BothFinished s) : ¬ Agrees s := by
  obtain ⟨hnewest, hgone⟩ := finished_facts h hfinished
  rintro ⟨hmirrored, hdeleted⟩
  rcases hd with hl | hl
  · have hdead : ¬ s.stored.live := hgone.1 hl.gone
    refine (hdeleted hdead).2 ?_
    rcases hl.unsynced with hun | ⟨side, l, c, hc, _⟩
    · rwa [hnewest] at hun
    · cases (hfinished side).symm.trans hc
  · obtain ⟨doc, hdoc, hne⟩ := hl.stale
    have hlive : s.stored.live := by
      by_contra hdead
      rw [hgone.2 hdead] at hdoc
      cases hdoc
    have hsame := hmirrored hlive (hnewest ▸ hl.synced)
    rw [h.storedId, Option.bind_some, hdoc] at hsame
    rw [hnewest] at hne
    exact hne (congrArg Doc.metadata (Option.some.inj hsame))

/-- **Two requests on one row agree with the remote index at the end exactly when** no patch
among their moves is stale. -/
theorem agrees_iff_no_stalePatch (pf : Platform) {others : List Memory} {row : Memory}
    {docs : String → Option Doc} (first second : EditRequest) (hlive : row.live)
    (hstatus : row.externalStatus = .synced) (hmirrored : row.Mirrored docs)
    (hadmits : admits pf others row = true) {turns : List EditTurn}
    (hfinished : BothFinished
      (Runs.run (editMove pf others) (editStart row docs first second) turns)) :
    Agrees (Runs.run (editMove pf others) (editStart row docs first second) turns) ↔
      ∀ p ∈ Runs.steps (editMove pf others) (editStart row docs first second) turns,
        ¬ StalePatch p.1 p.2 := by
  obtain ⟨docId, hext, hdoc⟩ := Option.bind_eq_some_iff.1 (hmirrored hlive hstatus)
  have hinv : EditInv pf others docId (editStart row docs first second) :=
    editInv_start first second hlive hstatus hext hmirrored hadmits
  have hstep : ∀ s turn, EditInv pf others docId s →
      EditInv pf others docId (editMove pf others s turn) :=
    fun _ turn h => editInv_move pf h turn
  have hend := Runs.inv_run hstep hinv turns
  constructor
  · intro hagrees p hp hstale
    refine not_agrees_of_disagrees hend ?_ hfinished hagrees
    exact Runs.run_of_step hstep (fun _ _ h hs => disagrees_of_stale pf h hs)
      (fun _ turn h hd => disagrees_move pf h turn hd) hinv ⟨p, hp, hstale⟩
  · intro hstale
    have hfresh : Fresh docId (editStart row docs first second) := by
      refine ⟨hstatus, hstatus, fun _ _ => by simp [editStart, EditPc.copies], fun doc h => ?_⟩
      cases hdoc.symm.trans h
      exact Or.inl rfl
    have hboth : ∀ s turn, EditInv pf others docId s ∧ Fresh docId s → ¬ StalePatch s turn →
        EditInv pf others docId (editMove pf others s turn) ∧
          Fresh docId (editMove pf others s turn) :=
      fun s turn h hs => ⟨hstep s turn h.1, fresh_move pf h.1 h.2 turn hs⟩
    have hlast := Runs.inv_states_of_steps hboth ⟨hinv, hfresh⟩ hstale _
      (Runs.run_mem_states _ _ turns)
    exact agrees_of_fresh hend hlast.2 hfinished

/-! ## Two runs -/

/-- A row as `create_memory` leaves it, -/
def sampleMemory : Memory where
  id := 1
  userId := 7
  text := "ran".toList
  eventDate := sampleDate
  eventTime := none
  eventTz := "UTC".toList
  locationLat := none
  locationLng := none
  locationLabel := none
  contentHash := canonicalHash utcPlatform "ran".toList
  externalId := some "doc"
  externalStatus := .synced
  externalSyncedAt := some 0
  externalError := none
  createdAt := 0
  deletedAt := none

/-- and its document. -/
def sampleDocs : String → Option Doc :=
  setDoc (fun _ => none) "doc" (some ⟨sampleMemory.text, buildMetadata sampleMemory⟩)

def labelUpdate : EditRequest :=
  .update ⟨.unset, .unset, .unset, .unset, .unset, .unset, .set (some "sea".toList)⟩

def dateUpdate : EditRequest :=
  .update ⟨.unset, .set { sampleDate with day := 15, day_range := by decide }, .unset, .unset,
    .unset, .unset, .unset⟩

/-- The two requests on the sample row, moving in the given order. -/
def runEdits (first second : EditRequest) (order : List Bool) : Editing :=
  Runs.run (editMove utcPlatform []) (editStart sampleMemory sampleDocs first second)
    (order.map fun side => ⟨side, ⟨1, 1, 2⟩, "new"⟩)

instance (s : Editing) : Decidable (Agrees s) := inferInstanceAs (Decidable (_ ∧ _))

/-- The theorem at one update after the other. -/
theorem agrees_iff_no_stalePatch_sequential :
    let turns : List EditTurn :=
      [false, false, false, false, false, true, true, true, true, true].map fun side =>
        ⟨side, ⟨1, 1, 2⟩, "new"⟩
    let start := editStart sampleMemory sampleDocs labelUpdate dateUpdate
    Agrees (Runs.run (editMove utcPlatform []) start turns) ↔
      ∀ p ∈ Runs.steps (editMove utcPlatform []) start turns, ¬ StalePatch p.1 p.2 :=
  agrees_iff_no_stalePatch utcPlatform labelUpdate dateUpdate rfl rfl (by decide +kernel)
    (by decide +kernel) fun side => by cases side <;> rfl

/-- Two updates of different columns, both loaded before either commits: the second patch sends
metadata without the first one's column.  An update loaded before a delete: its patch finds no
document and leaves the deleted row `unsynced`. -/
theorem stale_copies_disagree :
    (sampleMemory.live ∧ sampleMemory.externalStatus = .synced ∧
        sampleMemory.Mirrored sampleDocs) ∧
      ¬ (∀ order, BothFinished (runEdits labelUpdate dateUpdate order) →
        Agrees (runEdits labelUpdate dateUpdate order)) ∧
      ¬ ∀ order, BothFinished (runEdits labelUpdate .delete order) →
        Agrees (runEdits labelUpdate .delete order) := by
  refine ⟨⟨rfl, rfl, by decide +kernel⟩, ?_, ?_⟩
  · intro h
    have hfinished := h [false, true, false, false, false, false, true, true, true, true]
      fun side => by cases side <;> rfl
    exact absurd hfinished (by decide +kernel)
  · intro h
    have hfinished := h [false, true, true, true, true, false, false, false, false]
      fun side => by cases side <;> rfl
    exact absurd hfinished (by decide +kernel)

end MeJournal
