import MeJournal.Chat.Concurrent
import MeJournal.Chat.Listing

/-!
# Session titles

`create_session` stores the title it is given; where it was given none, `record_user_message` fills
one in from the message, if the `session` that the request read has none.  The request does not
read it again before it writes: of two first messages whose requests overlap, the later commit
wins.

* `move_titleOf`, `move_said` — what a move does to the title and to the messages of a session.
* `session_titles` — every title is the given one or the start of one of the session's messages, of
  the first when no request commits a title late; and what becomes of it later.
-/

namespace MeJournal

namespace Titles

variable {M J : Type}

/-! ## What there is to see of a session -/

/-- The title of the session, if there is such a session. -/
def titleOf (db : ChatDb J) (id : UUID) : Option (Option Text) :=
  (db.sessions.find id).map Session.title

/-- The user's messages in the session, deleted ones too, in the order of their commits. -/
def said (db : ChatDb J) (id : UUID) : List Text :=
  (db.messages.rows.filter fun m => m.sessionId = id && m.role = .user).map Message.content

/-- The title that a message makes. -/
def autofill (message : Text) : Text := message.take titleAutofillChars

/-- What a move commits of the user. -/
structure Post where
  sessionId : UUID
  message : Text
  /-- The session had no title when the request read it. -/
  untitled : Bool

/-- The message that the next move of a request commits, if it commits one of the user's. -/
def post (db : ChatDb J) : ServerProc M J → Option Post
  | .chat p =>
    match p.pc with
    | .haveSession session =>
      if db.messages.table.has p.req.clientMessageId || !db.sessions.has session.id then none
      else some ⟨session.id, p.req.message, session.title.isNone⟩
    | _ => none
  | .delete _ => none

/-- The title of the session after the commit. -/
def retitled (post : Option Post) (id : UUID) (title : Option Text) : Option Text :=
  (post.filter fun p => p.sessionId = id && p.untitled).elim title fun p =>
    some (autofill p.message)

/-- What the commit adds to the session. -/
def posted (post : Option Post) (id : UUID) : List Text :=
  (post.filter fun p => p.sessionId = id).toList.map Post.message

@[simp] theorem retitled_none (id : UUID) (title : Option Text) :
    retitled none id title = title := rfl

@[simp] theorem posted_none (id : UUID) : posted none id = [] := rfl

theorem retitled_some (p : Post) (id : UUID) (title : Option Text) :
    retitled (some p) id title =
      if p.sessionId = id ∧ p.untitled = true then some (autofill p.message) else title := by
  by_cases h : p.sessionId = id ∧ p.untitled = true
  · rw [retitled, if_pos h, Option.filter_some_pos (by simpa using h)]
    rfl
  · rw [retitled, if_neg h, Option.filter_some_neg (by simpa using h)]
    rfl

theorem posted_some (p : Post) (id : UUID) :
    posted (some p) id = if p.sessionId = id then [p.message] else [] := by
  by_cases h : p.sessionId = id
  · rw [posted, if_pos h, Option.filter_some_pos (by simpa using h)]
    rfl
  · rw [posted, if_neg h, Option.filter_some_neg (by simpa using h)]
    rfl

/-! ## What the writes do to it -/

theorem titleOf_touchSession (db : ChatDb J) (session : Session) (now : Time)
    (title : Option Text) (id : UUID) :
    titleOf { db with sessions := touchSession db.sessions session now title } id =
      (titleOf db id).map fun old =>
        if id = session.id then title.orElse fun _ => old else old := by
  simp only [titleOf, touchSession, Table.find_mapRows, Option.map_map]
  cases hfind : db.sessions.find id with
  | none => rfl
  | some s =>
    obtain rfl := (Table.find_eq_some.1 hfind).2
    simp only [Option.map_some, Function.comp]
    split <;> rfl

theorem said_append {db db' : ChatDb J} {m : Message J}
    (h : db'.messages.rows = db.messages.rows ++ [m]) (id : UUID) :
    said db' id =
      said db id ++ if m.sessionId = id ∧ m.role = .user then [m.content] else [] := by
  simp only [said, h, List.filter_append, List.map_append]
  congr 1
  by_cases hm : m.sessionId = id ∧ m.role = .user
  · simp [hm]
  · rw [if_neg hm, List.filter_cons_of_neg (by simpa using hm)]
    rfl

theorem said_congr {db db' : ChatDb J} (h : db'.messages.rows = db.messages.rows) (id : UUID) :
    said db' id = said db id := by
  rw [said, h, said]

theorem titleOf_commitDelete (db : ChatDb J) (sessionId : UUID) (ids : List UUID) (now : Time)
    (id : UUID) : titleOf (commitDelete db sessionId ids now) id = titleOf db id := by
  simp only [titleOf, commitDelete, Table.find_mapRows, Option.map_map]
  congr 1
  funext s
  simp only [Function.comp]
  split <;> rfl

theorem said_commitDelete (db : ChatDb J) (sessionId : UUID) (ids : List UUID) (now : Time)
    (id : UUID) : said (commitDelete db sessionId ids now) id = said db id := by
  simp only [said, commitDelete, Messages.softDelete_rows, List.filter_map, List.map_map]
  have hkept : ∀ m : Message J,
      ((if m.id ∈ ids then Messages.markDeleted now m else m).sessionId = m.sessionId ∧
        (if m.id ∈ ids then Messages.markDeleted now m else m).role = m.role ∧
        (if m.id ∈ ids then Messages.markDeleted now m else m).content = m.content) := by
    intro m
    split <;> exact ⟨rfl, rfl, rfl⟩
  simp only [Function.comp_def, hkept]

/-! ## What a move does to it -/

section Moves

variable (codec : ToolCodec M J) (historyTurns : Nat) (input : MoveInput M)

/-- What a move that commits `post` leaves to see. -/
def Commits (post : Option Post) (db db' : ChatDb J) : Prop :=
  ∀ id, titleOf db' id = (titleOf db id).map (retitled post id) ∧
    said db' id = said db id ++ posted post id

theorem commits_none {db db' : ChatDb J} (hsessions : db'.sessions = db.sessions)
    (hmessages : db'.messages = db.messages) : Commits none db db' := by
  intro id
  rw [titleOf, hsessions, said_congr (congrArg Messages.rows hmessages), posted_none,
    List.append_nil, ← titleOf]
  refine ⟨?_, rfl⟩
  cases titleOf db id <;> rfl

theorem commits_recordUserMessage {db db' : ChatDb J} {env : ChatEnv} {userId : UUID}
    {session : Session} {req : ChatRequest} {m : Message J}
    (h : recordUserMessage db env userId session req = .ok (m, db')) :
    Commits (if db.messages.table.has req.clientMessageId || !db.sessions.has session.id then none
      else some ⟨session.id, req.message, session.title.isNone⟩) db db' := by
  unfold recordUserMessage at h
  simp only at h
  split at h
  · cases h
  split at h
  · rename_i existing hfind
    obtain ⟨hmem, hid⟩ := Table.find_eq_some.1 hfind
    cases h
    rw [Table.has_iff.2 ⟨m, hmem, hid⟩]
    exact commits_none rfl rfl
  · rename_i hfind
    have hnew : db.messages.table.has req.clientMessageId = false :=
      Table.has_eq_false.2 (Table.find_eq_none.1 hfind)
    split at h
    · cases h
    · rename_i db₁ hinsert
      obtain ⟨hsession, messages, hmessages, rfl⟩ := ChatDb.insertMessage_eq_some.1 hinsert
      obtain ⟨-, -, -, hrows⟩ := Messages.insert_eq_some.1 hmessages
      cases h
      have hhas : db.sessions.has session.id = true := Table.has_iff.2 hsession
      rw [hnew, hhas]
      intro id
      constructor
      · refine (titleOf_touchSession ..).trans ?_
        change (titleOf db id).map _ = _
        congr 1
        funext old
        by_cases hid : session.id = id
        · cases htitle : session.title <;> simp [retitled_some, hid, autofill]
        · simp [retitled_some, hid, Ne.symm hid]
      · rw [said_append hrows]
        simp [posted_some, userRow]

theorem commits_recordAssistantMessage {db db' : ChatDb J} {env : ChatEnv} {session : Session}
    {row : AssistantRow J} (h : recordAssistantMessage db env session row = some db') :
    Commits none db db' := by
  obtain ⟨-, -, -, -, hrows, hsessions⟩ := recordAssistantMessage_eq_some h
  intro id
  constructor
  · have htouch := titleOf_touchSession db session env.now none id
    rw [titleOf, hsessions]
    refine htouch.trans ?_
    congr 1
    funext old
    split <;> rfl
  · rw [said_append hrows]
    simp [assistantMessage]

/-- **What a move commits**, of the titles and of the users' messages. -/
theorem move_commits (p : ServerProc M J) (db : ChatDb J) :
    Commits (post db p) db (p.move codec historyTurns input db).2 := by
  cases p with
  | chat p =>
    simp only [ServerProc.move, ChatProc.move, post]
    cases hpc : p.pc with
    | start =>
      simp only
      split <;> exact commits_none rfl rfl
    | haveSession session =>
      simp only
      cases hrecord : recordUserMessage db input.env p.userId session p.req with
      | ok r => exact commits_recordUserMessage hrecord
      | error e =>
        have hnone : db.sessions.has session.id = false := by
          rw [← Bool.not_eq_true, Table.has_iff]
          intro hsession
          obtain ⟨_, _, hok⟩ := recordUserMessage_succeeds input.env p.userId hsession p.req
          cases hrecord.symm.trans hok
        rw [hnone, Bool.not_false, Bool.or_true]
        exact commits_none rfl rfl
    | recorded session =>
      simp only
      split <;> exact commits_none rfl rfl
    | noReply session =>
      simp only
      split <;> exact commits_none rfl rfl
    | streamed session row =>
      simp only
      cases hrecord : recordAssistantMessage db input.env session row with
      | none => exact commits_none rfl rfl
      | some db' => exact commits_recordAssistantMessage hrecord
    | done => exact commits_none rfl rfl
  | delete p =>
    simp only [ServerProc.move, DeleteProc.move, post]
    cases hpc : p.pc with
    | start =>
      simp only
      split
      · exact commits_none rfl rfl
      · split <;> exact commits_none rfl rfl
    | selected => exact commits_none rfl rfl
    | cascaded ids now =>
      intro id
      rw [titleOf_commitDelete, said_commitDelete]
      refine ⟨?_, (List.append_nil _).symm⟩
      cases titleOf db id <;> rfl
    | done => exact commits_none rfl rfl

end Moves

/-! ## Runs -/

/-- A server that also takes `POST /sessions`. -/
structure Journal (M J : Type) where
  server : Server M J
  /-- The sessions that were created, with the titles they were created with. -/
  given : List (UUID × Option Text)

inductive JournalEvent (M : Type) where
  | createSession (env : ChatEnv) (userId newId : UUID) (title : Option Text)
  | server (e : ServerEvent M)

def Journal.start : Journal M J := ⟨serverStart ⟨Table.empty, Messages.empty, Table.empty⟩, []⟩

def journalStep (codec : ToolCodec M J) (historyTurns : Nat) (j : Journal M J) :
    JournalEvent M → Journal M J
  | .createSession env userId newId title =>
    match createSession j.server.shared env userId newId title with
    | none => j
    | some db => ⟨⟨db, j.server.procs⟩, j.given ++ [(newId, title)]⟩
  | .server e => { j with server := serverStep codec historyTurns j.server e }

/-- The request has read the session without a title, and has not written. -/
def untitledCopy (id : UUID) : ServerProc M J → Bool
  | .chat p =>
    match p.pc with
    | .haveSession session => session.id = id && session.title.isNone
    | _ => false
  | .delete _ => false

/-- The event commits a title into a session that has one. -/
def Late (j : Journal M J) : JournalEvent M → Prop
  | .server (.move i _) => ∃ p ∈ j.server.procs[i]?, ∃ q ∈ post j.server.shared p,
      q.untitled = true ∧ titleOf j.server.shared q.sessionId ≠ some none
  | _ => False

/-- How the title of a session comes from the one it was created with. -/
def TitledBy (said : List Text) (title : Option Text) : Option Text → Prop
  | some given => title = some given
  | none => title = none ∧ said = [] ∨ ∃ message ∈ said, title = some (autofill message)

/-! ## The invariant -/

/-- Every session was created, and its title comes from the one it was created with. -/
structure Titled (given : List (UUID × Option Text)) (db : ChatDb J) : Prop where
  titled : ∀ id g, (id, g) ∈ given →
    ∃ title, titleOf db id = some title ∧ TitledBy (said db id) title g
  unsaid : ∀ id, titleOf db id = none → said db id = []

/-- What a copy of a session row tells about the row. -/
structure Copied (given : List (UUID × Option Text)) (db : ChatDb J) (session : Session) :
    Prop where
  row : ∃ title, titleOf db session.id = some title ∧ (title = none → session.title = none)
  untitled : session.title = none → ∀ g, (session.id, g) ∈ given → g = none

/-- The copy that a request has read tells the truth. -/
def Reads (given : List (UUID × Option Text)) (_ : Nat) (db : ChatDb J) (p : ServerProc M J) :
    Prop :=
  ∀ c, p = .chat c → ∀ session, c.pc = .haveSession session → Copied given db session

theorem titledBy_append {said more : List Text} {title g : Option Text}
    (h : TitledBy said title g) (hmore : title = none → more = []) :
    TitledBy (said ++ more) title g := by
  cases g with
  | some given => exact h
  | none =>
    rcases h with ⟨htitle, rfl⟩ | ⟨message, hmem, htitle⟩
    · exact Or.inl ⟨htitle, by rw [hmore htitle, List.append_nil]⟩
    · exact Or.inr ⟨message, List.mem_append_left more hmem, htitle⟩

/-- The row of a copy keeps its title, or gets one. -/
theorem Copied.mono {given : List (UUID × Option Text)} {db db' : ChatDb J} {session : Session}
    {post : Option Post} (h : Copied given db session) (hcommits : Commits post db db') :
    Copied given db' session := by
  obtain ⟨title, htitle, hnone⟩ := h.row
  refine ⟨⟨retitled post session.id title, ?_, fun hret => hnone ?_⟩, h.untitled⟩
  · rw [(hcommits session.id).1, htitle, Option.map_some]
  · cases post with
    | none => exact hret
    | some p =>
      rw [retitled_some] at hret
      split at hret
      · cases hret
      · exact hret

/-- What a request commits goes into a session that it has a copy of. -/
theorem post_copied {given : List (UUID × Option Text)} {i : Nat} {db : ChatDb J}
    {p : ServerProc M J} (h : Reads given i db p) {q : Post} (hq : post db p = some q) :
    ∃ session, Copied given db session ∧ q.sessionId = session.id ∧
      q.untitled = session.title.isNone ∧ untitledCopy q.sessionId p = q.untitled := by
  cases p with
  | delete d => cases hq
  | chat c =>
    simp only [post] at hq
    split at hq
    · rename_i session hpc
      split at hq
      · cases hq
      · cases hq
        exact ⟨session, h c rfl session hpc, rfl, rfl, by simp [untitledCopy, hpc]⟩
    · cases hq

/-- **A commit keeps every title in order.** -/
theorem Titled.commit {given : List (UUID × Option Text)} {db db' : ChatDb J} {i : Nat}
    {p : ServerProc M J} (h : Titled given db) (hreads : Reads given i db p)
    (hcommits : Commits (post db p) db db') : Titled given db' := by
  constructor
  · intro id g hg
    obtain ⟨title, htitle, hby⟩ := h.titled id g hg
    refine ⟨retitled (post db p) id title, by rw [(hcommits id).1, htitle, Option.map_some], ?_⟩
    rw [(hcommits id).2]
    cases hpost : post db p with
    | none => simpa using hby
    | some q =>
      obtain ⟨session, hcopy, hid, huntitled, -⟩ := post_copied hreads hpost
      rw [retitled_some, posted_some]
      by_cases hq : q.sessionId = id
      · subst hq
        cases hq : q.untitled with
        | true =>
          obtain rfl : g = none :=
            hcopy.untitled (by simpa [hq] using huntitled.symm) g (hid ▸ hg)
          simp only [and_self, if_true]
          exact Or.inr ⟨q.message, by simp, rfl⟩
        | false =>
          have hsome : title ≠ none := by
            rintro rfl
            obtain ⟨title', htitle', hnone⟩ := hcopy.row
            rw [← hid, htitle] at htitle'
            have hnone := hnone (Option.some.inj htitle').symm
            simp [hq, hnone] at huntitled
          simp only [Bool.false_eq_true, and_false, if_false]
          exact titledBy_append hby fun hnone => absurd hnone hsome
      · simp only [hq, false_and, if_false, List.append_nil]
        exact hby
  · intro id hnone
    rw [(hcommits id).1, Option.map_eq_none_iff] at hnone
    rw [(hcommits id).2, h.unsaid id hnone, List.nil_append]
    cases hpost : post db p with
    | none => rfl
    | some q =>
      obtain ⟨session, hcopy, hid, -⟩ := post_copied hreads hpost
      obtain ⟨title, htitle, -⟩ := hcopy.row
      rw [posted_some, if_neg]
      rintro rfl
      rw [hid, htitle] at hnone
      cases hnone

/-- A copy is read from the table. -/
theorem move_copy {codec : ToolCodec M J} {historyTurns : Nat} {input : MoveInput M}
    {p : ServerProc M J} {db : ChatDb J} {c : ChatProc M J} {session : Session}
    (h : (p.move codec historyTurns input db).1 = .chat c) (hpc : c.pc = .haveSession session) :
    (p.move codec historyTurns input db).2 = db ∧ session ∈ db.sessions.rows := by
  cases p with
  | delete d => cases h
  | chat p =>
    simp only [ServerProc.move, ServerProc.chat.injEq] at h ⊢
    subst h
    unfold ChatProc.move at hpc ⊢
    split at hpc
    · split at hpc
      · cases hpc
      · rename_i hget
        cases hpc
        exact ⟨rfl, (getSession_eq_some.1 hget).1⟩
    · split at hpc <;> cases hpc
    · split at hpc <;> cases hpc
    · simp only at hpc
      split at hpc <;> cases hpc
    · split at hpc <;> cases hpc
    · rename_i hdone
      rw [hdone] at hpc
      cases hpc

theorem titleOf_mem {db : ChatDb J} {s : Session} (h : s ∈ db.sessions.rows) :
    titleOf db s.id = some s.title := by
  rw [titleOf, Table.find_eq_some.2 ⟨h, rfl⟩]
  rfl

theorem Titled.copied {given : List (UUID × Option Text)} {db : ChatDb J} (h : Titled given db)
    {session : Session} (hmem : session ∈ db.sessions.rows) : Copied given db session := by
  have htitle := titleOf_mem hmem
  refine ⟨⟨session.title, htitle, id⟩, fun hnone g hg => ?_⟩
  obtain ⟨title, htitle', hby⟩ := h.titled _ g hg
  obtain rfl := Option.some.inj (htitle.symm.trans htitle')
  cases g with
  | none => rfl
  | some t => cases hnone.symm.trans hby

/-- **`create_session`**, seen from outside. -/
theorem createSession_seen {db db' : ChatDb J} {env : ChatEnv} {userId newId : UUID}
    {title : Option Text} (h : createSession db env userId newId title = some db') :
    titleOf db newId = none ∧
      (∀ id, titleOf db' id = if newId = id then some title else titleOf db id) ∧
      ∀ id, said db' id = said db id := by
  obtain ⟨sessions, hinsert, rfl⟩ := Option.map_eq_some_iff.1 h
  refine ⟨?_, fun id => ?_, fun _ => rfl⟩
  · rw [titleOf, Table.find_eq_none.2 (Table.insert?_eq_some.1 hinsert).1]
    rfl
  · rw [titleOf, Table.find_insert? hinsert, titleOf]
    split <;> rfl

section Creation

variable {given : List (UUID × Option Text)} {db db' : ChatDb J} {env : ChatEnv}
  {userId newId : UUID} {title : Option Text}

theorem Copied.create {session : Session} (h : Copied given db session)
    (hcreate : createSession db env userId newId title = some db') :
    Copied (given ++ [(newId, title)]) db' session := by
  obtain ⟨hfresh, htitleOf, -⟩ := createSession_seen hcreate
  obtain ⟨old, hold, hnone⟩ := h.row
  have hne : newId ≠ session.id := by
    intro heq
    rw [heq, hold] at hfresh
    cases hfresh
  refine ⟨⟨old, by rw [htitleOf, if_neg hne, hold], hnone⟩, fun huntitled g hg => ?_⟩
  rcases List.mem_append.1 hg with hg | hg
  · exact h.untitled huntitled g hg
  · exact absurd (congrArg Prod.fst (List.mem_singleton.1 hg)).symm hne

theorem Titled.create (h : Titled given db)
    (hcreate : createSession db env userId newId title = some db') :
    Titled (given ++ [(newId, title)]) db' := by
  obtain ⟨hfresh, htitleOf, hsaid⟩ := createSession_seen hcreate
  constructor
  · intro id g hg
    rw [htitleOf, hsaid]
    rcases List.mem_append.1 hg with hg | hg
    · obtain ⟨old, hold, hby⟩ := h.titled id g hg
      have hne : newId ≠ id := by
        rintro rfl
        cases hold.symm.trans hfresh
      exact ⟨old, by rw [if_neg hne, hold], hby⟩
    · cases List.mem_singleton.1 hg
      refine ⟨title, if_pos rfl, ?_⟩
      rw [h.unsaid _ hfresh]
      cases title with
      | none => exact Or.inl ⟨rfl, rfl⟩
      | some t => rfl
  · intro id hnone
    rw [htitleOf] at hnone
    rw [hsaid]
    split at hnone
    · cases hnone
    · exact h.unsaid id hnone

end Creation

/-- The invariant of a journal. -/
def Kept (j : Journal M J) : Prop :=
  Interleaving.Inv (Titled j.given) (Reads j.given) j.server

theorem kept_start : Kept (Journal.start : Journal M J) where
  shared := ⟨nofun, fun _ _ => rfl⟩
  procs i p hp := by simp [Journal.start, serverStart] at hp

/-- **One event.** -/
theorem kept_step (codec : ToolCodec M J) (historyTurns : Nat) {j : Journal M J} (h : Kept j)
    (e : JournalEvent M) : Kept (journalStep codec historyTurns j e) := by
  cases e with
  | createSession env userId newId title =>
    simp only [journalStep]
    cases hcreate : createSession j.server.shared env userId newId title with
    | none => exact h
    | some db =>
      exact ⟨h.shared.create hcreate, fun i p hp c hc session hpc =>
        (h.procs i p hp c hc session hpc).create hcreate⟩
  | server e =>
    refine Interleaving.inv_step h (fun p hp c hc session hpc => ?_) ?_
    · -- a request comes without a copy
      cases e with
      | postChat userId req =>
        cases hp
        cases hc
        cases hpc
      | deleteSession userId sessionId =>
        cases hp
        cases hc
      | move i input => cases hp
    · intro i input p he hp
      cases e with
      | postChat userId req => cases he
      | deleteSession userId sessionId => cases he
      | move i' input' =>
        cases he
        have hcommits := move_commits codec historyTurns input p j.server.shared
        refine ⟨h.shared.commit (h.procs i p hp) hcommits, fun c hc session hpc => ?_,
          fun k q _ hq c hc session hpc => (h.procs k q hq c hc session hpc).mono hcommits⟩
        obtain ⟨hsame, hmem⟩ := move_copy hc hpc
        rw [hsame]
        exact h.shared.copied hmem

theorem kept_run (codec : ToolCodec M J) (historyTurns : Nat) (es : List (JournalEvent M)) :
    Kept (Runs.run (journalStep codec historyTurns) (Journal.start : Journal M J) es) :=
  Runs.inv_run (I := Kept) (fun _ e h => kept_step codec historyTurns h e) kept_start es

/-! ## Without late titles -/

/-- The title of a session that was created without one is the start of its first message. -/
def FirstTitled (j : Journal M J) : Prop :=
  ∀ id, (id, none) ∈ j.given →
    titleOf j.server.shared id = some ((said j.server.shared id).head?.map autofill)

theorem FirstTitled.create {j : Journal M J} (h : Kept j) (hfirst : FirstTitled j)
    {env : ChatEnv} {userId newId : UUID} {title : Option Text}
    {db : ChatDb J} (hcreate : createSession j.server.shared env userId newId title = some db) :
    FirstTitled (⟨⟨db, j.server.procs⟩, j.given ++ [(newId, title)]⟩ : Journal M J) := by
  obtain ⟨hfresh, htitleOf, hsaid⟩ := createSession_seen hcreate
  intro id hg
  rw [htitleOf, hsaid]
  rcases List.mem_append.1 hg with hg | hg
  · have hne : newId ≠ id := by
      rintro rfl
      cases (hfirst _ hg).symm.trans hfresh
    rw [if_neg hne, hfirst id hg]
  · cases List.mem_singleton.1 hg
    rw [if_pos rfl, h.shared.unsaid _ hfresh]
    rfl

/-- A commit that is not late. -/
theorem FirstTitled.commit {j : Journal M J} (h : Kept j) (hfirst : FirstTitled j) {i : Nat}
    {p : ServerProc M J} (hp : j.server.procs[i]? = some p) {db' : ChatDb J}
    (hcommits : Commits (post j.server.shared p) j.server.shared db')
    (hintime : ∀ q ∈ post j.server.shared p, q.untitled = true →
      titleOf j.server.shared q.sessionId = some none) (id : UUID) (hg : (id, none) ∈ j.given) :
    titleOf db' id = some ((said db' id).head?.map autofill) := by
  have htitle := hfirst id hg
  rw [(hcommits id).1, (hcommits id).2, htitle, Option.map_some]
  cases hpost : post j.server.shared p with
  | none => simp
  | some q =>
    obtain ⟨session, hcopy, hid, huntitled, -⟩ := post_copied (h.procs i p hp) hpost
    rw [retitled_some, posted_some]
    by_cases hq : q.sessionId = id
    · subst hq
      cases hq : q.untitled with
      | true =>
        -- the session had no title, so nothing was said in it
        have hnone := hintime q hpost hq
        rw [htitle, Option.some_inj, Option.map_eq_none_iff, List.head?_eq_none_iff] at hnone
        simp [hnone]
      | false =>
        obtain ⟨title, hrow, hnone⟩ := hcopy.row
        rw [← hid, htitle, Option.some_inj] at hrow
        cases hsaid : said j.server.shared q.sessionId with
        | nil =>
          rw [hsaid] at hrow
          simp [hq, hnone hrow.symm] at huntitled
        | cons message more => simp
    · simp [hq]

theorem firstTitled_step (codec : ToolCodec M J) (historyTurns : Nat) {j : Journal M J}
    (h : Kept j) (hfirst : FirstTitled j) {e : JournalEvent M} (he : ¬ Late j e) :
    FirstTitled (journalStep codec historyTurns j e) := by
  cases e with
  | createSession env userId newId title =>
    simp only [journalStep]
    cases hcreate : createSession j.server.shared env userId newId title with
    | none => exact hfirst
    | some db => exact hfirst.create h hcreate
  | server e =>
    cases e with
    | postChat userId req => exact hfirst
    | deleteSession userId sessionId => exact hfirst
    | move i input =>
      cases hp : j.server.procs[i]? with
      | none =>
        simp only [journalStep, serverStep, ServerEvent.toEvent, Interleaving.step_move_none hp]
        exact hfirst
      | some p =>
        simp only [journalStep, serverStep, ServerEvent.toEvent, Interleaving.step_move hp]
        refine hfirst.commit h hp (move_commits codec historyTurns input p _) fun q hq hun => ?_
        by_contra hlate
        exact he ⟨p, hp, q, hq, hun, hlate⟩

/-! ## Settled titles -/

/-- The session has the title, and no request is about to give it another. -/
structure Settled (id : UUID) (t : Text) (j : Journal M J) : Prop where
  title : titleOf j.server.shared id = some (some t)
  copies : ∀ p ∈ j.server.procs, untitledCopy id p = false

theorem settled_step (codec : ToolCodec M J) (historyTurns : Nat) {j : Journal M J} (hj : Kept j)
    {id : UUID} {t : Text} (h : Settled id t j) (e : JournalEvent M) :
    Settled id t (journalStep codec historyTurns j e) := by
  cases e with
  | createSession env userId newId title =>
    simp only [journalStep]
    cases hcreate : createSession j.server.shared env userId newId title with
    | none => exact h
    | some db =>
      obtain ⟨hfresh, htitleOf, -⟩ := createSession_seen hcreate
      have hne : newId ≠ id := by
        rintro rfl
        cases h.title.symm.trans hfresh
      exact ⟨by rw [htitleOf, if_neg hne, h.title], h.copies⟩
  | server e =>
    cases e with
    | postChat userId req =>
      exact ⟨h.title, List.forall_mem_append.2 ⟨h.copies, List.forall_mem_singleton.2 rfl⟩⟩
    | deleteSession userId sessionId =>
      exact ⟨h.title, List.forall_mem_append.2 ⟨h.copies, List.forall_mem_singleton.2 rfl⟩⟩
    | move i input =>
      refine ⟨?_, (Interleaving.forall_procs_move h.copies i input).2 fun p hp => ?_⟩
      · cases hp : j.server.procs[i]? with
        | none =>
          simp only [journalStep, serverStep, ServerEvent.toEvent,
            Interleaving.step_move_none hp]
          exact h.title
        | some p =>
          simp only [journalStep, serverStep, ServerEvent.toEvent, Interleaving.step_move hp]
          rw [(move_commits codec historyTurns input p _ id).1, h.title, Option.map_some]
          cases hpost : post j.server.shared p with
          | none => rfl
          | some q =>
            obtain ⟨-, -, -, -, hcopy⟩ := post_copied (hj.procs i p hp) hpost
            rw [retitled_some, if_neg]
            rintro ⟨rfl, hq⟩
            rw [h.copies p (List.mem_of_getElem? hp), hq] at hcopy
            cases hcopy
      · -- a copy that the move reads has the title
        cases hmoved : (p.move codec historyTurns input j.server.shared).1 with
        | delete d => rfl
        | chat c =>
          simp only [untitledCopy]
          split
          · rename_i session hpc
            obtain ⟨-, hmem⟩ := move_copy hmoved hpc
            by_cases hid : session.id = id
            · have htitle := titleOf_mem hmem
              rw [hid, h.title, Option.some_inj] at htitle
              simp [← htitle]
            · simp [hid]
          · rfl

/-! ## The titles of a journal -/

/-- **Titles.**  In every interleaving of `POST /sessions`, chat requests and deletes, a session's
title is the one it was created with, or else the start of one of the user's messages in it, and
of the first if no request commits a title late.  Once there is a title and no request holds a
copy of the session without one, the title stays. -/
theorem session_titles (codec : ToolCodec M J) (historyTurns : Nat)
    (es later : List (JournalEvent M)) :
    let j := Runs.run (journalStep codec historyTurns) (Journal.start : Journal M J) es
    (∀ id g, (id, g) ∈ j.given → ∃ title, titleOf j.server.shared id = some title ∧
      TitledBy (said j.server.shared id) title g) ∧
    ((∀ p ∈ Runs.steps (journalStep codec historyTurns) (Journal.start : Journal M J) es,
        ¬ Late p.1 p.2) →
      ∀ id, (id, none) ∈ j.given → titleOf j.server.shared id =
        some ((said j.server.shared id).head?.map autofill)) ∧
    ∀ id t, titleOf j.server.shared id = some (some t) →
      (∀ p ∈ j.server.procs, untitledCopy id p = false) →
      titleOf (Runs.run (journalStep codec historyTurns) j later).server.shared id =
        some (some t) := by
  intro j
  have hkept : Kept j := kept_run codec historyTurns es
  refine ⟨hkept.shared.titled, fun hintime => ?_, fun id t htitle hcopies => ?_⟩
  · have hsteps : ∀ (j : Journal M J) (e : JournalEvent M), Kept j ∧ FirstTitled j → ¬ Late j e →
        Kept (journalStep codec historyTurns j e) ∧
          FirstTitled (journalStep codec historyTurns j e) :=
      fun j e h he => ⟨kept_step codec historyTurns h.1 e,
        firstTitled_step codec historyTurns h.1 h.2 he⟩
    exact (Runs.inv_states_of_steps hsteps ⟨kept_start, nofun⟩ hintime j
      (Runs.run_mem_states _ _ _)).2
  · have hstep : ∀ (j : Journal M J) (e : JournalEvent M), Kept j ∧ Settled id t j →
        Kept (journalStep codec historyTurns j e) ∧
          Settled id t (journalStep codec historyTurns j e) :=
      fun j e h => ⟨kept_step codec historyTurns h.1 e,
        settled_step codec historyTurns h.1 h.2 e⟩
    exact (Runs.inv_run hstep ⟨hkept, htitle, hcopies⟩ later).2.title

/-- Two first messages: both requests read the session before either commits, and the second
commit is late. -/
def overlapping : List (JournalEvent Unit) :=
  .createSession (sampleEnv 100) 7 5 none ::
    .server (.postChat 7 (sampleRequest 5 1 "rode".toList (by decide))) ::
    .server (.postChat 7 (sampleRequest 5 2 "slept".toList (by decide))) ::
    [0, 1, 0, 1].map fun i => .server (.move i ⟨sampleEnv 100, textAgent "ok".toList⟩)

example :
    let j := Runs.run (journalStep unitCodec 10) (Journal.start : Journal Unit Unit) overlapping
    said j.server.shared 5 = ["rode".toList, "slept".toList] ∧
      titleOf j.server.shared 5 = some (some "slept".toList) := by
  decide +kernel

end Titles

end MeJournal
