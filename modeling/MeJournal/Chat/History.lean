import MeJournal.Chat.Retries

/-!
# The history that the agent is given

`load_recent_history` of `app/services/sessions.py` takes the newest `2 * limit_pairs` messages of
the session other than the excluded one.  A turn that failed leaves a user message without a reply,
and the messages after it are out of step with the window.

* `RecentPairs` — the history is the newest complete pairs, in chronological order.
* `Orderly` — a message that does not follow an unanswered one: the condition on each step.
* `Tidy` — the invariant: the messages of a session are its pairs, and one unanswered message at
  most; `tidy_turnStep` is one step.
* `recentPairs_of_tidy`, `not_recentPairs_of_unanswered` — when the history is right, and when not.
* `recentPairs_of_orderly` — the two along whole runs.
-/

namespace MeJournal

namespace History

variable {M J : Type}

/-! ## Pairs -/

/-- `m` comes before `n` in the order by `created_at` and `id`. -/
def Earlier (m n : Message J) : Prop := ¬ newestFirst m n

instance : DecidableRel (@Earlier J) := fun _ _ => inferInstanceAs (Decidable (¬ _))

/-- A user message and its reply. -/
structure IsPair (q : Message J × Message J) : Prop where
  user : q.1.role = .user
  assistant : q.2.role = .assistant
  parent : q.2.parentMessageId = some q.1.id

/-- The live messages of the session other than the excluded one. -/
structure Considered (db : ChatDb J) (session exclude : UUID) (m : Message J) : Prop where
  mem : m ∈ db.messages.rows
  session : m.sessionId = session
  live : m.live
  notExcluded : m.id ≠ exclude

structure CompletePair (db : ChatDb J) (session exclude : UUID) (q : Message J × Message J) :
    Prop where
  user : Considered db session exclude q.1
  reply : Considered db session exclude q.2
  pair : IsPair q

/-- The messages of the pairs. -/
def entries (pairs : List (Message J × Message J)) : List (Message J) :=
  pairs.flatMap fun q => [q.1, q.2]

def turnOf (m : Message J) : HistoryTurn := ⟨m.role, m.content⟩

/-- The history is at most `limitPairs` complete pairs in chronological order, and the complete
pairs that it leaves out are older. -/
def RecentPairs (db : ChatDb J) (session exclude : UUID) (limitPairs : Nat) : Prop :=
  ∃ pairs : List (Message J × Message J),
    loadRecentHistory db session exclude limitPairs = (entries pairs).map turnOf ∧
    pairs.length ≤ limitPairs ∧
    (∀ q ∈ pairs, CompletePair db session exclude q) ∧
    (entries pairs).Pairwise Earlier ∧
    ∀ q, CompletePair db session exclude q → q ∉ pairs →
      pairs.length = limitPairs ∧ ∀ r ∈ pairs, Earlier q.2 r.1

/-! ## The condition -/

/-- Nobody has replied to the message. -/
def Unanswered (db : ChatDb J) (u : Message J) : Prop := ∀ a ∈ db.messages.rows, ¬ a.repliesTo u.id

instance (db : ChatDb J) (u : Message J) : Decidable (Unanswered db u) :=
  inferInstanceAs (Decidable (∀ a ∈ _, _))

/-- `m` is added after all messages of its session: a user message when none of them is
unanswered, a reply to one of them. -/
structure Orderly (db : ChatDb J) (m : Message J) : Prop where
  later : ∀ n ∈ db.messages.rows, n.sessionId = m.sessionId → Earlier n m
  user : m.role = .user → ∀ u ∈ db.messages.rows, u.sessionId = m.sessionId → u.role = .user →
    ¬ Unanswered db u
  reply : ∀ parent ∈ m.parentMessageId, ∃ u ∈ db.messages.rows,
    u.id = parent ∧ u.role = .user ∧ u.sessionId = m.sessionId

instance (db : ChatDb J) (m : Message J) : Decidable (Orderly db m) :=
  decidable_of_iff
    ((∀ n ∈ db.messages.rows, n.sessionId = m.sessionId → Earlier n m) ∧
      (m.role = .user → ∀ u ∈ db.messages.rows, u.sessionId = m.sessionId → u.role = .user →
        ¬ Unanswered db u) ∧
      m.parentMessageId.all (fun parent => decide (∃ u ∈ db.messages.rows,
        u.id = parent ∧ u.role = .user ∧ u.sessionId = m.sessionId)) = true)
    ⟨fun h => ⟨h.1, h.2.1, fun parent hp =>
        of_decide_eq_true ((Option.all_eq_true _ _).1 h.2.2 parent hp)⟩,
      fun h => ⟨h.later, h.user, (Option.all_eq_true _ _).2 fun parent hp =>
        decide_eq_true (h.reply parent hp)⟩⟩

/-- The messages that a step adds. -/
def added (codec : ToolCodec M J) (historyTurns : Nat) (s : Server M J) (e : TurnEvent M) :
    List (Message J) :=
  (turnStep codec historyTurns s e).shared.messages.rows.drop s.shared.messages.rows.length

/-- An unanswered message of the session is the excluded one, and the excluded one, if it is in the
session, is unanswered. -/
structure Apt (db : ChatDb J) (session exclude : UUID) : Prop where
  unanswered : ∀ u ∈ db.messages.rows, u.sessionId = session → u.role = .user →
    Unanswered db u → u.id = exclude
  excluded : ∀ m ∈ db.messages.rows, m.sessionId = session → m.id = exclude →
    m.role = .user ∧ Unanswered db m

/-! ## The messages of a session -/

/-- The messages of a session, oldest first. -/
def sessionRows (db : ChatDb J) (session : UUID) : List (Message J) :=
  db.messages.rows.filter fun m => m.sessionId = session

theorem mem_sessionRows {db : ChatDb J} {session : UUID} {m : Message J} :
    m ∈ sessionRows db session ↔ m ∈ db.messages.rows ∧ m.sessionId = session := by
  simp [sessionRows]

/-- Pairs, then at most one unanswered user message. -/
def Turns (db : ChatDb J) (ms : List (Message J)) : Prop :=
  ∃ pairs tail, ms = entries pairs ++ Option.toList tail ∧ (∀ q ∈ pairs, IsPair q) ∧
    ∀ u ∈ tail, u.role = .user ∧ Unanswered db u

structure Tidy (db : ChatDb J) : Prop where
  live : ∀ m ∈ db.messages.rows, m.live
  parents : ∀ m ∈ db.messages.rows, ∀ parent ∈ m.parentMessageId,
    ∃ u ∈ db.messages.rows, u.id = parent
  turns : ∀ session, Turns db (sessionRows db session)
  sorted : ∀ session, (sessionRows db session).Pairwise Earlier

theorem mem_entries {pairs : List (Message J × Message J)} {m : Message J} :
    m ∈ entries pairs ↔ ∃ q ∈ pairs, m = q.1 ∨ m = q.2 := by
  simp [entries]

theorem entries_append (pairs pairs' : List (Message J × Message J)) :
    entries (pairs ++ pairs') = entries pairs ++ entries pairs' := List.flatMap_append

theorem length_entries (pairs : List (Message J × Message J)) :
    (entries pairs).length = 2 * pairs.length := by
  induction pairs with
  | nil => rfl
  | cons q pairs ih =>
    simp only [entries, List.flatMap_cons, List.length_append, List.length_cons,
      List.length_nil] at ih ⊢
    omega

theorem drop_entries (pairs : List (Message J × Message J)) (n : Nat) :
    (entries pairs).drop (2 * n) = entries (pairs.drop n) := by
  induction n generalizing pairs with
  | zero => rfl
  | succ n ih =>
    cases pairs with
    | nil => rfl
    | cons q pairs => exact ih pairs

/-! ## One step -/

/-- A row that a turn adds. -/
structure NewRow (m : Message J) : Prop where
  live : m.live
  role : m.role = .user ∧ m.parentMessageId = none ∨
    m.role = .assistant ∧ ∃ parent, m.parentMessageId = some parent

theorem chatMove_rows (codec : ToolCodec M J) (historyTurns : Nat) (input : MoveInput M)
    (p : ChatProc M J) (db : ChatDb J) :
    (p.move codec historyTurns input db).2.messages.rows = db.messages.rows ∨
      ∃ m, NewRow m ∧
        (p.move codec historyTurns input db).2.messages.rows = db.messages.rows ++ [m] := by
  unfold ChatProc.move
  split
  · split <;> exact Or.inl rfl
  · split
    · exact Or.inl rfl
    · rename_i hrecord
      rcases recordUserMessage_cases hrecord with ⟨_, _, rfl⟩ | ⟨_, _, hrows, _⟩
      · exact Or.inl rfl
      · exact Or.inr ⟨_, ⟨rfl, Or.inl ⟨rfl, rfl⟩⟩, hrows⟩
  · split <;> exact Or.inl rfl
  · simp only
    split <;> exact Or.inl rfl
  · split
    · exact Or.inl rfl
    · rename_i hrecord
      obtain ⟨_, _, _, _, hrows, _⟩ := recordAssistantMessage_eq_some hrecord
      exact Or.inr ⟨_, ⟨rfl, Or.inr ⟨rfl, _, rfl⟩⟩, hrows⟩
  · exact Or.inl rfl

section

variable {db db' : ChatDb J} {m : Message J}

/-- The row added is new. -/
theorem fresh_of_rows (hrows : db'.messages.rows = db.messages.rows ++ [m]) :
    ∀ n ∈ db.messages.rows, n.id ≠ m.id := by
  have hkeys : ((db.messages.rows ++ [m]).map Message.id).Nodup := hrows ▸ db'.messages.table.pk
  rw [List.map_append, List.map_singleton, List.nodup_append] at hkeys
  intro n hn
  exact hkeys.2.2 n.id (List.mem_map_of_mem hn) m.id (List.mem_singleton_self _)

theorem sessionRows_of_rows (hrows : db'.messages.rows = db.messages.rows ++ [m])
    (session : UUID) : sessionRows db' session =
      sessionRows db session ++ if m.sessionId = session then [m] else [] := by
  rw [sessionRows, hrows, List.filter_append, List.filter_singleton, ← sessionRows]
  congr 1
  by_cases hm : m.sessionId = session <;> simp [hm]

/-- Another message stays unanswered. -/
theorem Unanswered.of_rows {u : Message J} (h : Unanswered db u)
    (hrows : db'.messages.rows = db.messages.rows ++ [m]) (hm : m.parentMessageId ≠ some u.id) :
    Unanswered db' u := by
  intro a ha
  rw [hrows] at ha
  rcases List.mem_append.1 ha with ha | ha
  · exact h a ha
  · cases List.mem_singleton.1 ha
    exact fun hreply => hm hreply.1

/-- A message that is replied to was unanswered. -/
theorem unanswered_of_reply (hrows : db'.messages.rows = db.messages.rows ++ [m]) {u : Message J}
    (hreply : m.repliesTo u.id) : Unanswered db u := by
  intro a ha hreply'
  have ha' : a ∈ db'.messages.rows := hrows ▸ List.mem_append_left _ ha
  have hm' : m ∈ db'.messages.rows := by rw [hrows]; simp
  have hsame : a = m := db'.messages.uxParent u.id a ha' m hm' hreply' hreply
  exact fresh_of_rows hrows a ha (congrArg Message.id hsame)

/-- The reply of a pair. -/
theorem Tidy.repliesTo (h : Tidy db) {q : Message J × Message J} (hq : IsPair q)
    (hmem : q.2 ∈ db.messages.rows) : q.2.repliesTo q.1.id := ⟨hq.parent, h.live q.2 hmem⟩

/-- **An unanswered user message is the last of its session.** -/
theorem Tidy.unanswered_last (h : Tidy db) {u : Message J} (hu : u ∈ db.messages.rows)
    (huser : u.role = .user) (hnone : Unanswered db u) :
    ∃ pairs, sessionRows db u.sessionId = entries pairs ++ [u] ∧ ∀ q ∈ pairs, IsPair q := by
  obtain ⟨pairs, tail, hrows, hpairs, htail⟩ := h.turns u.sessionId
  have hmem : u ∈ entries pairs ++ tail.toList := hrows ▸ mem_sessionRows.2 ⟨hu, rfl⟩
  rcases List.mem_append.1 hmem with hentry | hmem
  · obtain ⟨q, hq, rfl | rfl⟩ := mem_entries.1 hentry
    · have hreply : q.2 ∈ sessionRows db q.1.sessionId := by
        rw [hrows]
        exact List.mem_append_left _ (mem_entries.2 ⟨q, hq, Or.inr rfl⟩)
      have hq₂ := (mem_sessionRows.1 hreply).1
      exact absurd (h.repliesTo (hpairs q hq) hq₂) (hnone q.2 hq₂)
    · rw [(hpairs q hq).assistant] at huser
      cases huser
  · cases Option.mem_toList.1 hmem
    exact ⟨pairs, hrows, hpairs⟩

/-- Without an unanswered message the session is its pairs. -/
theorem Turns.all_answered {session : UUID} (h : Turns db (sessionRows db session))
    (hall : ∀ u ∈ db.messages.rows, u.sessionId = session → u.role = .user → ¬ Unanswered db u) :
    ∃ pairs, sessionRows db session = entries pairs ∧ ∀ q ∈ pairs, IsPair q := by
  obtain ⟨pairs, tail, hrows, hpairs, htail⟩ := h
  cases tail with
  | none => exact ⟨pairs, by rw [hrows, Option.toList_none, List.append_nil], hpairs⟩
  | some u =>
    obtain ⟨huser, hnone⟩ := htail u rfl
    have hu : u ∈ sessionRows db session := by rw [hrows]; simp
    obtain ⟨hmem, hsession⟩ := mem_sessionRows.1 hu
    exact absurd hnone (hall u hmem hsession huser)

/-- The session of the row added. -/
theorem turns_added (h : Tidy db) (hrows : db'.messages.rows = db.messages.rows ++ [m])
    (hnew : NewRow m) (horderly : Orderly db m) : Turns db' (sessionRows db' m.sessionId) := by
  rw [sessionRows_of_rows hrows, if_pos rfl]
  rcases hnew.role with ⟨huser, hparent⟩ | ⟨hassistant, parent, hparent⟩
  · obtain ⟨pairs, heq, hpairs⟩ := (h.turns m.sessionId).all_answered (horderly.user huser)
    refine ⟨pairs, some m, by rw [heq]; rfl, hpairs, ?_⟩
    rintro u ⟨⟩
    refine ⟨huser, fun a ha hreply => ?_⟩
    rw [hrows] at ha
    rcases List.mem_append.1 ha with ha | ha
    · obtain ⟨n, hn, hid⟩ := h.parents a ha _ hreply.1
      exact fresh_of_rows hrows n hn hid
    · cases List.mem_singleton.1 ha
      rw [hreply.1] at hparent
      cases hparent
  · obtain ⟨u, hu, rfl, huser, hsession⟩ := horderly.reply parent hparent
    have hnone := unanswered_of_reply hrows ⟨hparent, hnew.live⟩
    obtain ⟨pairs, heq, hpairs⟩ := h.unanswered_last hu huser hnone
    rw [hsession] at heq
    refine ⟨pairs ++ [(u, m)], none, ?_, ?_, fun v hv => by cases hv⟩
    · rw [heq, entries_append]
      simp [entries]
    · intro q hq
      rcases List.mem_append.1 hq with hq | hq
      · exact hpairs q hq
      · cases List.mem_singleton.1 hq
        exact ⟨huser, hassistant, hparent⟩

/-- The other sessions. -/
theorem turns_kept (h : Tidy db) (hrows : db'.messages.rows = db.messages.rows ++ [m])
    (horderly : Orderly db m) {session : UUID} (hsession : m.sessionId ≠ session) :
    Turns db' (sessionRows db' session) := by
  rw [sessionRows_of_rows hrows, if_neg hsession, List.append_nil]
  obtain ⟨pairs, tail, heq, hpairs, htail⟩ := h.turns session
  refine ⟨pairs, tail, heq, hpairs, fun u hu => ?_⟩
  obtain ⟨huser, hnone⟩ := htail u hu
  refine ⟨huser, hnone.of_rows hrows fun hparent => ?_⟩
  have hmem : u ∈ sessionRows db session := by
    rw [heq]
    exact List.mem_append_right _ (Option.mem_toList.2 hu)
  obtain ⟨n, hn, hid, -, hsame⟩ := horderly.reply u.id hparent
  have hnu : n = u := db.messages.table.eq_of_key_eq hn (mem_sessionRows.1 hmem).1 hid
  exact hsession (hsame.symm.trans (hnu ▸ (mem_sessionRows.1 hmem).2))

/-- **One more orderly message.** -/
theorem tidy_added (h : Tidy db) (hrows : db'.messages.rows = db.messages.rows ++ [m])
    (hnew : NewRow m) (horderly : Orderly db m) : Tidy db' where
  live := by
    rw [hrows, List.forall_mem_append, List.forall_mem_singleton]
    exact ⟨h.live, hnew.live⟩
  parents := by
    rw [hrows, List.forall_mem_append, List.forall_mem_singleton]
    constructor
    · intro n hn parent hparent
      obtain ⟨u, hu, hid⟩ := h.parents n hn parent hparent
      exact ⟨u, List.mem_append_left _ hu, hid⟩
    · intro parent hparent
      obtain ⟨u, hu, hid, -, -⟩ := horderly.reply parent hparent
      exact ⟨u, List.mem_append_left _ hu, hid⟩
  turns session := by
    by_cases hsession : m.sessionId = session
    · exact hsession ▸ turns_added h hrows hnew horderly
    · exact turns_kept h hrows horderly hsession
  sorted session := by
    rw [sessionRows_of_rows hrows]
    split
    · rename_i hsession
      rw [List.pairwise_append]
      refine ⟨h.sorted session, List.pairwise_singleton _ _, fun n hn n' hn' => ?_⟩
      cases List.mem_singleton.1 hn'
      obtain ⟨hmem, hsame⟩ := mem_sessionRows.1 hn
      exact horderly.later n hmem (hsame.trans hsession.symm)
    · rw [List.append_nil]
      exact h.sorted session

theorem tidy_of_rows_eq (h : Tidy db) (hrows : db'.messages.rows = db.messages.rows) :
    Tidy db' := by
  have hmessages : db'.messages = db.messages := Messages.ext hrows
  obtain ⟨_, _, _⟩ := db
  obtain ⟨_, _, _⟩ := db'
  cases hmessages
  exact ⟨h.live, h.parents, h.turns, h.sorted⟩

end

/-- A step of a server that has chat requests only. -/
theorem turnStep_rows (codec : ToolCodec M J) (historyTurns : Nat) {s : Server M J}
    (h : Interleaving.Inv (fun _ => True) AllAnswer s) (e : TurnEvent M) :
    (turnStep codec historyTurns s e).shared.messages.rows = s.shared.messages.rows ∨
      ∃ m, NewRow m ∧ (turnStep codec historyTurns s e).shared.messages.rows =
        s.shared.messages.rows ++ [m] := by
  cases e with
  | postChat userId req => exact Or.inl rfl
  | move i input =>
    cases hp : s.procs[i]? with
    | none =>
      have hstep : turnStep codec historyTurns s (.move i input) = s :=
        Interleaving.step_move_none hp input
      rw [hstep]
      exact Or.inl rfl
    | some p =>
      obtain ⟨c, rfl, -⟩ := h.procs i p hp
      have hstep : (turnStep codec historyTurns s (.move i input)).shared =
          (c.move codec historyTurns input s.shared).2 :=
        congrArg Interleaving.System.shared (Interleaving.step_move hp input)
      rw [hstep]
      exact chatMove_rows codec historyTurns input c s.shared

/-- The invariant of a run. -/
def TidyServer (s : Server M J) : Prop :=
  Interleaving.Inv (fun _ => True) AllAnswer s ∧ Tidy s.shared

theorem tidyServer_start (sessions : Table Session.id) (memories : MemoryTable) :
    TidyServer (serverStart ⟨sessions, Messages.empty, memories⟩ : Server M J) := by
  have hturns : ∀ session, Turns (⟨sessions, Messages.empty, memories⟩ : ChatDb J)
      (sessionRows ⟨sessions, Messages.empty, memories⟩ session) :=
    fun session => ⟨[], none, rfl, List.forall_mem_nil _, fun u hu => by cases hu⟩
  exact ⟨⟨trivial, fun i p hp => by simp [serverStart] at hp⟩,
    fun m hm => absurd hm List.not_mem_nil, fun m hm => absurd hm List.not_mem_nil, hturns,
    fun session => List.Pairwise.nil⟩

/-- **One step** of orderly messages keeps the invariant. -/
theorem tidy_turnStep (codec : ToolCodec M J) (historyTurns : Nat) {s : Server M J}
    {e : TurnEvent M} (h : TidyServer s)
    (horderly : ∀ m ∈ added codec historyTurns s e, Orderly s.shared m) :
    TidyServer (turnStep codec historyTurns s e) := by
  refine ⟨inv_turnStep codec historyTurns h.1, ?_⟩
  rcases turnStep_rows codec historyTurns h.1 e with hrows | ⟨m, hnew, hrows⟩
  · exact tidy_of_rows_eq h.2 hrows
  · refine tidy_added h.2 hrows hnew (horderly m ?_)
    rw [added, hrows, List.drop_left]
    exact List.mem_singleton_self m

/-! ## The window -/

section

variable {db : ChatDb J} {session exclude : UUID}

/-- The rows of the query, before `ORDER BY` and `LIMIT`. -/
def queried (db : ChatDb J) (session exclude : UUID) : List (Message J) :=
  db.messages.rows.filter fun m =>
    m.sessionId = session && m.deletedAt.isNone && m.id != exclude

theorem mem_queried {m : Message J} :
    m ∈ queried db session exclude ↔ Considered db session exclude m := by
  simp only [queried, List.mem_filter, Bool.and_eq_true, decide_eq_true_eq,
    Option.isNone_iff_eq_none, bne_iff_ne]
  exact ⟨fun h => ⟨h.1, h.2.1.1, h.2.1.2, h.2.2⟩,
    fun h => ⟨h.mem, ⟨h.session, h.live⟩, h.notExcluded⟩⟩

/-- A message that is older than all others goes last. -/
theorem orderedInsert_earlier {m : Message J} {ms : List (Message J)}
    (h : ∀ n ∈ ms, Earlier m n) : ms.orderedInsert newestFirst m = ms ++ [m] := by
  induction ms with
  | nil => rfl
  | cons n ms ih =>
    rw [List.orderedInsert_of_not_le newestFirst ms (h n (by simp)),
      ih fun k hk => h k (by simp [hk]), List.cons_append]

/-- Sorting what is sorted the other way. -/
theorem insertionSort_earlier {ms : List (Message J)} (h : ms.Pairwise Earlier) :
    ms.insertionSort newestFirst = ms.reverse := by
  induction ms with
  | nil => rfl
  | cons m ms ih =>
    obtain ⟨hm, hms⟩ := List.pairwise_cons.1 h
    rw [List.insertionSort_cons, ih hms,
      orderedInsert_earlier fun n hn => hm n (List.mem_reverse.1 hn), List.reverse_cons]

/-- The history of rows that are in order. -/
theorem loadRecentHistory_earlier (h : (queried db session exclude).Pairwise Earlier)
    (limitPairs : Nat) : loadRecentHistory db session exclude limitPairs =
      ((queried db session exclude).drop
        ((queried db session exclude).length - 2 * limitPairs)).map turnOf := by
  show (((queried db session exclude).insertionSort newestFirst).take (2 * limitPairs)).reverse.map
    turnOf = _
  rw [insertionSort_earlier h, List.take_reverse, List.reverse_reverse]

/-- The query selects from the session. -/
theorem Tidy.queried_eq (h : Tidy db) : queried db session exclude =
    (sessionRows db session).filter fun m => m.id != exclude := by
  rw [queried, sessionRows, List.filter_filter]
  refine List.filter_congr fun m hm => ?_
  have hlive : m.deletedAt.isNone = true := by rw [h.live m hm]; rfl
  rw [hlive, Bool.and_true, Bool.and_comm]

/-- **With an apt exclusion the query has the pairs of the session.** -/
theorem Tidy.queried_entries (h : Tidy db) (hapt : Apt db session exclude) :
    ∃ pairs, queried db session exclude = entries pairs ∧ ∀ q ∈ pairs, IsPair q := by
  obtain ⟨pairs, tail, hrows, hpairs, htail⟩ := h.turns session
  refine ⟨pairs, ?_, hpairs⟩
  have hmem : ∀ m ∈ entries pairs ++ tail.toList, m ∈ db.messages.rows ∧ m.sessionId = session :=
    fun m hm => mem_sessionRows.1 (hrows ▸ hm)
  have hentries : (entries pairs).filter (fun m => m.id != exclude) = entries pairs := by
    refine List.filter_eq_self.2 fun m hm => bne_iff_ne.2 fun hid => ?_
    obtain ⟨hm', hsession⟩ := hmem m (List.mem_append_left _ hm)
    obtain ⟨huser, hnone⟩ := hapt.excluded m hm' hsession hid
    obtain ⟨q, hq, rfl | rfl⟩ := mem_entries.1 hm
    · obtain ⟨hreply, -⟩ :=
        hmem q.2 (List.mem_append_left _ (mem_entries.2 ⟨q, hq, Or.inr rfl⟩))
      exact hnone q.2 hreply (h.repliesTo (hpairs q hq) hreply)
    · rw [(hpairs q hq).assistant] at huser
      cases huser
  have htail' : tail.toList.filter (fun m => m.id != exclude) = [] := by
    refine List.filter_eq_nil_iff.2 fun u hu => ?_
    obtain ⟨hu', hsession⟩ := hmem u (List.mem_append_right _ hu)
    obtain ⟨huser, hnone⟩ := htail u (Option.mem_toList.1 hu)
    simp [hapt.unanswered u hu' hsession huser hnone]
  rw [h.queried_eq, hrows, List.filter_append, hentries, htail', List.append_nil]

/-- The pairs of the query are the complete ones. -/
theorem completePair_iff {pairs : List (Message J × Message J)}
    (hrows : queried db session exclude = entries pairs) (hpairs : ∀ q ∈ pairs, IsPair q)
    (q : Message J × Message J) : CompletePair db session exclude q ↔ q ∈ pairs := by
  have hmem : ∀ m, m ∈ entries pairs ↔ Considered db session exclude m :=
    fun m => hrows ▸ mem_queried
  constructor
  · intro hq
    obtain ⟨r, hr, heq | heq⟩ := mem_entries.1 ((hmem q.1).2 hq.user)
    · have hr₂ := (hmem r.2).1 (mem_entries.2 ⟨r, hr, Or.inr rfl⟩)
      have hsame : q.2 = r.2 := by
        refine db.messages.uxParent q.1.id q.2 hq.reply.mem r.2 hr₂.mem
          ⟨hq.pair.parent, hq.reply.live⟩ ⟨?_, hr₂.live⟩
        rw [heq]
        exact (hpairs r hr).parent
      rwa [show q = r from Prod.ext heq hsame]
    · have hrole := hq.pair.user
      rw [heq, (hpairs r hr).assistant] at hrole
      cases hrole
  · intro hq
    exact ⟨(hmem q.1).1 (mem_entries.2 ⟨q, hq, Or.inl rfl⟩),
      (hmem q.2).1 (mem_entries.2 ⟨q, hq, Or.inr rfl⟩), hpairs q hq⟩

/-- **The history of a tidy session**, with an apt exclusion. -/
theorem recentPairs_of_tidy (h : Tidy db) (hapt : Apt db session exclude) (limitPairs : Nat) :
    RecentPairs db session exclude limitPairs := by
  obtain ⟨pairs, hrows, hpairs⟩ := h.queried_entries hapt
  have hcomplete := completePair_iff hrows hpairs
  have hsorted : (entries pairs).Pairwise Earlier := by
    rw [← hrows, h.queried_eq]
    exact (h.sorted session).filter _
  have hwindow : (entries pairs).length - 2 * limitPairs = 2 * (pairs.length - limitPairs) := by
    rw [length_entries]
    omega
  refine ⟨pairs.drop (pairs.length - limitPairs), ?_, ?_, ?_, ?_, ?_⟩
  · rw [loadRecentHistory_earlier (hrows ▸ hsorted), hrows, hwindow, drop_entries]
  · rw [List.length_drop]
    omega
  · exact fun q hq => (hcomplete q).2 (List.mem_of_mem_drop hq)
  · rw [← drop_entries]
    exact hsorted.sublist (List.drop_sublist _ _)
  · intro q hq hout
    have hq' : q ∈ pairs.take (pairs.length - limitPairs) := by
      have hmem := (hcomplete q).1 hq
      rw [← List.take_append_drop (pairs.length - limitPairs) pairs] at hmem
      exact (List.mem_append.1 hmem).resolve_right hout
    have hlen : limitPairs < pairs.length := by
      by_contra hle
      rw [Nat.sub_eq_zero_of_le (Nat.le_of_not_lt hle), List.take_zero] at hq'
      cases hq'
    refine ⟨by rw [List.length_drop]; omega, fun r hr => ?_⟩
    rw [← List.take_append_drop (pairs.length - limitPairs) pairs, entries_append,
      List.pairwise_append] at hsorted
    exact hsorted.2.2 q.2 (mem_entries.2 ⟨q, hq', Or.inr rfl⟩) r.1
      (mem_entries.2 ⟨r, hr, Or.inl rfl⟩)

theorem length_loadRecentHistory {limitPairs : Nat}
    (h : (queried db session exclude).length ≤ 2 * limitPairs) :
    (loadRecentHistory db session exclude limitPairs).length =
      (queried db session exclude).length := by
  have hsort := List.length_insertionSort newestFirst (queried db session exclude)
  show ((((queried db session exclude).insertionSort newestFirst).take (2 * limitPairs)).reverse.map
    turnOf).length = _
  rw [List.length_map, List.length_reverse, List.length_take, hsort, min_eq_right h]

theorem nodup_of_earlier {ms : List (Message J)} (h : ms.Pairwise Earlier) : ms.Nodup := by
  refine h.imp fun hearlier heq => ?_
  subst heq
  exact hearlier (Std.Total.total (r := newestFirst) _ _ |>.elim id id)

/-- **An unanswered message that is not excluded** is in every window that is large enough. -/
theorem not_recentPairs_of_unanswered {u : Message J} (hu : Considered db session exclude u)
    (huser : u.role = .user) (hnone : Unanswered db u) :
    ¬ ∀ limitPairs, 1 ≤ limitPairs → RecentPairs db session exclude limitPairs := by
  intro h
  have hmem := mem_queried.2 hu
  have hpos : 1 ≤ (queried db session exclude).length := List.length_pos_of_mem hmem
  obtain ⟨pairs, hhistory, -, hcomplete, hsorted, -⟩ := h _ hpos
  -- the window is the whole session, so the pairs are all of it
  have hlength : (queried db session exclude).length = (entries pairs).length := by
    rw [← length_loadRecentHistory (Nat.le_mul_of_pos_left _ (by decide)), hhistory,
      List.length_map]
  have hsubset : entries pairs ⊆ queried db session exclude := by
    intro m hm
    obtain ⟨q, hq, rfl | rfl⟩ := mem_entries.1 hm
    · exact mem_queried.2 (hcomplete q hq).user
    · exact mem_queried.2 (hcomplete q hq).reply
  have hperm : (entries pairs).Perm (queried db session exclude) :=
    (List.subperm_of_subset (nodup_of_earlier hsorted) hsubset).perm_of_length_le hlength.le
  obtain ⟨q, hq, rfl | rfl⟩ := mem_entries.1 (hperm.mem_iff.2 hmem)
  · have hq' := hcomplete q hq
    exact hnone q.2 hq'.reply.mem ⟨hq'.pair.parent, hq'.reply.live⟩
  · rw [(hcomplete q hq).pair.assistant] at huser
    cases huser

end

/-! ## Runs -/

/-- A user message is added to a session that has an unanswered one. -/
def Overtakes (db : ChatDb J) (m : Message J) : Prop :=
  m.role = .user ∧ ∃ u ∈ db.messages.rows, u.sessionId = m.sessionId ∧ u.live ∧ u.role = .user ∧
    Unanswered db u

/-- After a message that overtakes another. -/
theorem not_recentPairs_of_overtakes (codec : ToolCodec M J) (historyTurns : Nat) {s : Server M J}
    {e : TurnEvent M} (h : Interleaving.Inv (fun _ => True) AllAnswer s) {m : Message J}
    (hm : m ∈ added codec historyTurns s e) (hovertakes : Overtakes s.shared m) :
    ¬ ∀ limitPairs, 1 ≤ limitPairs →
      RecentPairs (turnStep codec historyTurns s e).shared m.sessionId m.id limitPairs := by
  obtain ⟨huser, u, hu, hsession, hlive, huser', hnone⟩ := hovertakes
  rcases turnStep_rows codec historyTurns h e with hrows | ⟨m', hnew, hrows⟩
  · rw [added, hrows, List.drop_length] at hm
    cases hm
  rw [added, hrows, List.drop_left] at hm
  cases List.mem_singleton.1 hm
  have hparent : m.parentMessageId ≠ some u.id := by
    rcases hnew.role with ⟨-, hparent⟩ | ⟨hassistant, -⟩
    · rw [hparent]
      exact nofun
    · rw [huser] at hassistant
      cases hassistant
  have hconsidered : Considered (turnStep codec historyTurns s e).shared m.sessionId m.id u :=
    ⟨hrows ▸ List.mem_append_left _ hu, hsession, hlive, fresh_of_rows hrows u hu⟩
  exact not_recentPairs_of_unanswered hconsidered huser' (hnone.of_rows hrows hparent)

/-- **The history along every run of turns.**  If messages are added in an orderly way, then in
every state, for every apt exclusion, it is the newest complete pairs; after a message that
overtakes an unanswered one it is not, with the new message excluded. -/
theorem recentPairs_of_orderly (codec : ToolCodec M J) (historyTurns : Nat)
    (sessions : Table Session.id) (memories : MemoryTable) (es : List (TurnEvent M)) :
    ((∀ p ∈ Runs.steps (turnStep codec historyTurns)
          (serverStart ⟨sessions, Messages.empty, memories⟩ : Server M J) es,
        ∀ m ∈ added codec historyTurns p.1 p.2, Orderly p.1.shared m) →
      ∀ s ∈ Runs.states (turnStep codec historyTurns)
          (serverStart ⟨sessions, Messages.empty, memories⟩ : Server M J) es,
        ∀ session exclude, Apt s.shared session exclude → ∀ limitPairs, 1 ≤ limitPairs →
          RecentPairs s.shared session exclude limitPairs) ∧
    ∀ p ∈ Runs.steps (turnStep codec historyTurns)
        (serverStart ⟨sessions, Messages.empty, memories⟩ : Server M J) es,
      ∀ m ∈ added codec historyTurns p.1 p.2, Overtakes p.1.shared m →
        ¬ ∀ limitPairs, 1 ≤ limitPairs →
          RecentPairs (turnStep codec historyTurns p.1 p.2).shared m.sessionId m.id limitPairs := by
  constructor
  · intro horderly s hs session exclude hapt limitPairs _
    have hinv := Runs.inv_states_of_steps (fun _ _ => tidy_turnStep codec historyTurns)
      (tidyServer_start sessions memories) horderly s hs
    exact recentPairs_of_tidy hinv.2 hapt limitPairs
  · intro p hp m hm hovertakes
    have hinv := Runs.inv_states (fun _ _ => inv_turnStep codec historyTurns)
      (tidyServer_start sessions memories).1 es p.1 (Runs.fst_mem_states hp)
    exact not_recentPairs_of_overtakes codec historyTurns hinv hm hovertakes

/-- The server before the first message of a session. -/
def quietServer : Server Unit Unit :=
  serverStart ⟨sampleSessions 5 7, Messages.empty, Table.empty⟩

/-- A request with the given id, and its first moves. -/
def sampleTurn (i : Nat) (clientMessageId : UUID) (agent : Agent Unit) (moves : Nat) :
    List (TurnEvent Unit) :=
  .postChat 7 (sampleRequest 5 clientMessageId "rowed".toList (by decide)) ::
    List.replicate moves (.move i ⟨sampleEnv 100, agent⟩)

/-- The theorem at one turn that succeeds. -/
theorem recentPairs_of_orderly_turn :
    ∀ s ∈ Runs.states (turnStep unitCodec 10) quietServer
        (sampleTurn 0 1 (textAgent "ok".toList) 5),
      ∀ session exclude, Apt s.shared session exclude → ∀ limitPairs, 1 ≤ limitPairs →
        RecentPairs s.shared session exclude limitPairs :=
  (recentPairs_of_orderly unitCodec 10 (sampleSessions 5 7) Table.empty
    (sampleTurn 0 1 (textAgent "ok".toList) 5)).1 (by decide +kernel)

/-- The first turn fails, and the second finds its message without a partner. -/
theorem failed_turn_unpaired :
    ¬ ∀ limitPairs, 1 ≤ limitPairs →
      RecentPairs (Runs.run (turnStep unitCodec 10) quietServer
        (sampleTurn 0 1 failingAgent 4 ++ sampleTurn 1 2 (textAgent "ok".toList) 3)).shared
        5 2 limitPairs := by
  intro h
  obtain ⟨pairs, hhistory, -⟩ := h 10 (by decide)
  have hodd : (loadRecentHistory (Runs.run (turnStep unitCodec 10) quietServer
      (sampleTurn 0 1 failingAgent 4 ++ sampleTurn 1 2 (textAgent "ok".toList) 3)).shared
      5 2 10).length = 1 := by decide +kernel
  rw [hhistory, List.length_map, length_entries] at hodd
  omega

end History

end MeJournal
