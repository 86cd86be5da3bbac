import MeJournal.Chat.Concurrent

/-!
# Messages of deleted sessions

Interleavings of chat requests and `delete_session` on any sessions.

* `NoOrphans` — no live message lies in a deleted session.
* `noOrphans_states` — it holds in every reached state when every turn that commits a message
  finds the session live and no `delete_session` of it between its `UPDATE` of the messages and
  its commit.
-/

namespace MeJournal

variable {M J : Type}

/-! ## The property and the condition -/

/-- No live message belongs to a deleted session. -/
def NoOrphans (db : ChatDb J) : Prop :=
  ∀ m ∈ db.messages.rows, m.live → ∀ s ∈ db.sessions.rows, s.id = m.sessionId → s.live

instance (db : ChatDb J) : Decidable (NoOrphans db) :=
  inferInstanceAs (Decidable (∀ m ∈ db.messages.rows, _ → ∀ s ∈ db.sessions.rows, _))

/-- The session into which the next move commits a message, if it does. -/
def ServerProc.insertsInto (input : MoveInput M) (db : ChatDb J) : ServerProc M J → Option UUID
  | .chat p => p.insertsInto input db
  | .delete _ => none

/-- A `delete_session` of the session has updated the messages and not committed. -/
def ServerProc.cascading (sessionId : UUID) : ServerProc M J → Bool
  | .chat _ => false
  | .delete d =>
    match d.pc with
    | .cascaded _ _ => d.sessionId = sessionId
    | _ => false

/-- A message that the event commits goes into a session that is live and not being deleted. -/
def InsertsSafely (s : Server M J) : ServerEvent M → Prop
  | .move i input => ∀ p ∈ s.procs[i]?, ∀ sessionId ∈ p.insertsInto input s.shared,
      (∀ x ∈ s.shared.sessions.rows, x.id = sessionId → x.live) ∧
        ∀ q ∈ s.procs, q.cascading sessionId = false
  | _ => True

instance (s : Server M J) : (e : ServerEvent M) → Decidable (InsertsSafely s e)
  | .postChat _ _ => isTrue trivial
  | .deleteSession _ _ => isTrue trivial
  | .move _ _ => @Option.decidableForallMem _ _ (fun _ => Option.decidableForallMem _) _

/-! ## The moves of a deletion -/

theorem mem_liveMessageIds {db : ChatDb J} {sessionId : UUID} {m : Message J}
    (hm : m ∈ db.messages.rows) (hlive : m.live) (hs : m.sessionId = sessionId) :
    m.id ∈ liveMessageIds db sessionId := by
  refine List.mem_map.2 ⟨m, List.mem_filter.2 ⟨hm, ?_⟩, rfl⟩
  simp [hlive, hs]

/-- What survives the commit of a delete was there, unlisted. -/
theorem mem_commitDelete {db : ChatDb J} {sessionId : UUID} {ids : List UUID} {now : Time}
    {m : Message J} (hm : m ∈ (commitDelete db sessionId ids now).messages.rows)
    (hlive : m.live) : m ∈ db.messages.rows ∧ m.id ∉ ids := by
  simp only [commitDelete, Messages.softDelete_rows] at hm
  obtain ⟨n, hn, rfl⟩ := List.mem_map.1 hm
  by_cases hid : n.id ∈ ids
  · rw [if_pos hid] at hlive
    exact absurd hlive (Messages.markDeleted_dead now n)
  · rw [if_neg hid]
    exact ⟨hn, hid⟩

/-! ## The invariant -/

/-- An uncommitted cascade lists every live message of its session. -/
def Covers (_ : Nat) (db : ChatDb J) (p : ServerProc M J) : Prop :=
  ∀ d, p = .delete d → ∀ ids now, d.pc = .cascaded ids now →
    ∀ m ∈ db.messages.rows, m.live → m.sessionId = d.sessionId → m.id ∈ ids

/-- A database with no live message more keeps a cascade covered. -/
theorem Covers.mono {i : Nat} {db db' : ChatDb J} {p : ServerProc M J} (h : Covers i db p)
    (hsub : ∀ m ∈ db'.messages.rows, m.live → m ∈ db.messages.rows) : Covers i db' p :=
  fun d hd ids now hpc m hm hlive hs => h d hd ids now hpc m (hsub m hm hlive) hlive hs

theorem covers_chat (i : Nat) (db : ChatDb J) (p : ChatProc M J) : Covers i db (.chat p) :=
  fun _ hd => nomatch hd

/-- The invariant survives session updates that keep `deleted_at`, without new live messages. -/
theorem NoOrphans.mono {db db' : ChatDb J} (h : NoOrphans db)
    (hsess : SameDeleted db.sessions db'.sessions)
    (hsub : ∀ m ∈ db'.messages.rows, m.live → m ∈ db.messages.rows) : NoOrphans db' := by
  intro m hm hlive x hx hid
  obtain ⟨y, hy, hyid, hydel⟩ := hsess x hx
  rw [Session.live, hydel]
  exact h m (hsub m hm hlive) hlive y hy (hyid.symm.trans hid)

/-- A chat move that inserts safely. -/
theorem chatMove_inv {codec : ToolCodec M J} {historyTurns : Nat} {s : Server M J}
    (h : Interleaving.Inv NoOrphans Covers s) {i : Nat} {input : MoveInput M} {p : ChatProc M J}
    (hp : s.procs[i]? = some (.chat p)) (hsafe : InsertsSafely s (.move i input)) :
    NoOrphans (p.move codec historyTurns input s.shared).2 ∧
      ∀ j q, s.procs[j]? = some q → Covers j (p.move codec historyTurns input s.shared).2 q := by
  obtain ⟨hsess, hmsg⟩ := chatMove_db codec historyTurns input p s.shared
  rcases hmsg with hrows | ⟨m, hinto, hrows⟩
  · have hsub : ∀ m ∈ (p.move codec historyTurns input s.shared).2.messages.rows, m.live →
        m ∈ s.shared.messages.rows := fun m hm _ => hrows ▸ hm
    exact ⟨h.shared.mono hsess hsub, fun j q hq => (h.procs j q hq).mono hsub⟩
  · obtain ⟨hlive, hcascading⟩ := hsafe (.chat p) hp m.sessionId hinto
    constructor
    · intro m' hm' hm'live x hx hid
      obtain ⟨y, hy, hyid, hydel⟩ := hsess x hx
      rw [Session.live, hydel]
      rw [hrows] at hm'
      rcases List.mem_append.1 hm' with hm' | hm'
      · exact h.shared m' hm' hm'live y hy (hyid.symm.trans hid)
      · rw [List.mem_singleton.1 hm'] at hid
        exact hlive y hy (hyid.symm.trans hid)
    · rintro j q hq d rfl ids now hpc m' hm' hm'live hs
      rw [hrows] at hm'
      rcases List.mem_append.1 hm' with hm' | hm'
      · exact h.procs j (.delete d) hq d rfl ids now hpc m' hm' hm'live hs
      · have hno := hcascading (.delete d) (List.mem_of_getElem? hq)
        rw [List.mem_singleton.1 hm'] at hs
        simp [ServerProc.cascading, hpc, hs] at hno

/-- The commit of a covered cascade leaves no orphans. -/
theorem noOrphans_commitDelete {db : ChatDb J} {d : DeleteProc} {ids : List UUID} {now : Time}
    (h : NoOrphans db)
    (hcovers : ∀ m ∈ db.messages.rows, m.live → m.sessionId = d.sessionId → m.id ∈ ids) :
    NoOrphans (commitDelete db d.sessionId ids now) := by
  intro m hm hlive x hx hid
  obtain ⟨hmem, hnot⟩ := mem_commitDelete hm hlive
  obtain ⟨y, hy, rfl⟩ := List.mem_map.1 hx
  by_cases hy' : y.id = d.sessionId
  · rw [if_pos hy'] at hid
    exact absurd (hcovers m hmem hlive (hid.symm.trans hy')) hnot
  · rw [if_neg hy'] at hid ⊢
    exact h m hmem hlive y hy hid

/-- A move of `delete_session`. -/
theorem deleteMove_inv {s : Server M J} (h : Interleaving.Inv NoOrphans Covers s) {i : Nat}
    (now : Time) {d : DeleteProc} (hp : s.procs[i]? = some (.delete d)) :
    NoOrphans (d.move now s.shared).2 ∧
      Covers i (d.move now s.shared).2 (.delete (d.move now s.shared).1 : ServerProc M J) ∧
      ∀ j q, s.procs[j]? = some q → Covers j (d.move now s.shared).2 q := by
  have hself := h.procs i _ hp
  unfold DeleteProc.move
  split
  · have hdone : Covers i s.shared (.delete { d with pc := .done } : ServerProc M J) := by
      rintro _ ⟨⟩ ids now hpc
      cases hpc
    have hselected : Covers i s.shared (.delete { d with pc := .selected } : ServerProc M J) := by
      rintro _ ⟨⟩ ids now hpc
      cases hpc
    split
    · exact ⟨h.shared, hdone, h.procs⟩
    · split
      · exact ⟨h.shared, hdone, h.procs⟩
      · exact ⟨h.shared, hselected, h.procs⟩
  · refine ⟨h.shared, ?_, h.procs⟩
    rintro _ ⟨⟩ ids now hpc m hm hlive hs
    cases hpc
    exact mem_liveMessageIds hm hlive hs
  · rename_i ids now hpc
    refine ⟨noOrphans_commitDelete h.shared (hself d rfl ids now hpc), ?_, fun j q hq => ?_⟩
    · rintro _ ⟨⟩ ids now hpc
      cases hpc
    · exact (h.procs j q hq).mono fun m hm hlive => (mem_commitDelete hm hlive).1
  · exact ⟨h.shared, hself, h.procs⟩

/-- **One event** keeps the invariant when it inserts safely. -/
theorem inv_serverStep (codec : ToolCodec M J) (historyTurns : Nat) {s : Server M J}
    {e : ServerEvent M} (h : Interleaving.Inv NoOrphans Covers s) (hsafe : InsertsSafely s e) :
    Interleaving.Inv NoOrphans Covers (serverStep codec historyTurns s e) := by
  refine Interleaving.inv_step h ?_ ?_
  · intro p hp
    cases e with
    | postChat userId req =>
      cases hp
      exact covers_chat _ _ _
    | deleteSession userId sessionId =>
      cases hp
      rintro d ⟨⟩ ids now hpc
      cases hpc
    | move i input => cases hp
  · intro i input p hev hp
    cases e with
    | postChat => cases hev
    | deleteSession => cases hev
    | move i' input' =>
      cases hev
      cases p with
      | chat p =>
        obtain ⟨hshared, hprocs⟩ := chatMove_inv h hp hsafe
        exact ⟨hshared, covers_chat _ _ _, fun j q _ hq => hprocs j q hq⟩
      | delete d =>
        obtain ⟨hshared, hself, hprocs⟩ := deleteMove_inv h input.env.now hp
        exact ⟨hshared, hself, fun j q _ hq => hprocs j q hq⟩

/-! ## Runs -/

/-- **No reached state has a live message in a deleted session**, in every run whose events all
insert safely. -/
theorem noOrphans_states (codec : ToolCodec M J) (historyTurns : Nat) (db : ChatDb J)
    (hdb : NoOrphans db) (es : List (ServerEvent M))
    (hsafe : ∀ p ∈ Runs.steps (serverStep codec historyTurns) (serverStart db : Server M J) es,
      InsertsSafely p.1 p.2) :
    ∀ s ∈ Runs.states (serverStep codec historyTurns) (serverStart db : Server M J) es,
      NoOrphans s.shared := by
  have hstart : Interleaving.Inv NoOrphans Covers (serverStart db : Server M J) :=
    ⟨hdb, fun i p hp => by simp [serverStart] at hp⟩
  have hstep : ∀ (s : Server M J) (e : ServerEvent M), Interleaving.Inv NoOrphans Covers s →
      InsertsSafely s e → Interleaving.Inv NoOrphans Covers (serverStep codec historyTurns s e) :=
    fun _ _ h hs => inv_serverStep codec historyTurns h hs
  intro s hs
  exact (Runs.inv_states_of_steps hstep hstart hsafe s hs).shared

/-- A chat turn and a `delete_session` of its session, taking their moves in the order `order`. -/
def turnAndDelete (order : List Nat) : List (ServerEvent Unit) :=
  .postChat 7 (sampleRequest 5 1 "ran".toList (by decide)) :: .deleteSession 7 5 ::
    order.map fun i => .move i ⟨sampleEnv 100, textAgent "ok".toList⟩

/-- `noOrphans_states` on a turn that ends before the session is deleted. -/
theorem noOrphans_states_sequential :
    NoOrphans (Runs.run (serverStep unitCodec 10)
      (serverStart ⟨sampleSessions 5 7, Messages.empty, Table.empty⟩ : Server Unit Unit)
      (turnAndDelete [0, 0, 0, 0, 0, 1, 1, 1])).shared :=
  noOrphans_states unitCodec 10 ⟨sampleSessions 5 7, Messages.empty, Table.empty⟩ (by decide) _
    (by decide) _ (Runs.run_mem_states _ _ _)

/-- The session is deleted while the reply streams: the reply is committed into it all the same. -/
theorem reply_lands_in_deleted_session :
    ¬ ∀ s ∈ Runs.states (serverStep unitCodec 10)
        (serverStart ⟨sampleSessions 5 7, Messages.empty, Table.empty⟩ : Server Unit Unit)
        (turnAndDelete [0, 0, 1, 1, 1, 0, 0, 0]), NoOrphans s.shared := by
  decide

end MeJournal
