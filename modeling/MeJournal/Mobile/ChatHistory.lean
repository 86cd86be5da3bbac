import MeJournal.Chat.Listing
import MeJournal.Mobile.LiveTimeline
import MeJournal.Mobile.UseChatStream
import Mathlib.Data.List.Forall2

/-!
# The history of the chat screen

`mobile/lib/chat/use-chat-history.ts` and the message list of `use-chat.ts`, over the pages of
`GET /sessions/{id}/messages`.  A page is taken into the cache when the server has read it; no turn
is committed to the cache while a page is on its way.  `commitTurn` puts a turn on top of the cache
whatever its times are, so the results are about runs that commit a turn while its two messages are
the session's newest (`Orderly`).

* `getMessages_spec` — what a page has of the rows after its cursor.
* `coherent_step` — what the cache keeps of the server's rows, through loads and finished turns.
* `history_coherent` — in every such run the cache is a run of the server's messages, newest first,
  and misses only older ones and those that no load and no finished turn has brought.
* `screen_commit` — no message is on the screen twice, and a turn that finishes leaves the screen
  as it is.
-/

namespace MeJournal

open scoped KeyOrder

namespace ChatHistory

variable {J : Type}

/-! ## The cache -/

/-- `MessagesPage`. -/
structure MessagesPage (J : Type) where
  items : List (ServerMessage J)
  nextCursor : Option Text

/-- `query.data`: the pages. -/
abbrev HistoryData (J : Type) := Option (List (MessagesPage J))

/-- The cached messages, newest first. -/
def cached (data : HistoryData J) : List (ServerMessage J) :=
  ((data.getD []).map MessagesPage.items).flatten

/-- `getNextPageParam` of the last page. -/
def nextPageParam (data : HistoryData J) : Option Text :=
  (data.getD []).getLast?.bind MessagesPage.nextCursor

/-- `commitTurn`. -/
def commitTurn (data : HistoryData J) (user assistant : ServerMessage J) : HistoryData J :=
  match data with
  | none | some [] => some [⟨[assistant, user], none⟩]
  | some (first :: rest) =>
    let filtered := first.items.filter fun m => m.id ≠ user.id && m.id ≠ assistant.id
    some ({ first with items := assistant :: user :: filtered } :: rest)

/-! ## The server -/

/-- `MessageRead.model_validate`. -/
def messageRead (m : Message J) : ServerMessage J where
  id := m.id
  role := m.role
  content := m.content
  events := m.events
  parentMessageId := m.parentMessageId
  clientTz := m.clientTz
  createdAt := m.createdAt

/-- `PAGE_SIZE`. -/
def pageSize : Int := 50

/-- `GET /sessions/{id}/messages` of a live session. -/
def getMessages (cp : CursorPlatform) (table : Messages J) (sessionId : UUID)
    (before : Option Text) : Except PyExc (MessagesPage J) :=
  (listSessionMessages cp table sessionId pageSize .desc before).map fun r =>
    ⟨r.1.map messageRead, r.2⟩

/-- **A page**: the newest rows before the cursor, and where the others begin. -/
theorem getMessages_spec (cp : CursorPlatform) (sessionId : UUID) {table : Messages J}
    (htimely : table.Timely) (cursor : Option StampKey) (hgood : ∀ k ∈ cursor, k.Good) :
    ∃ (rows : List (Message J)) (bound : Option StampKey),
      getMessages cp table sessionId (cursor.map stampCursor) =
        .ok ⟨rows.map messageRead, bound.map stampCursor⟩ ∧
      rows.Pairwise (fun m n => n.stampKey < m.stampKey) ∧
      (∀ m ∈ rows, m ∈ table.rows ∧ inSession sessionId m = true ∧ ∀ c ∈ cursor, m.stampKey < c) ∧
      (∀ k ∈ bound, k.Good ∧ 2 ≤ rows.length ∧ ∀ m ∈ rows, k ≤ m.stampKey) ∧
      ∀ m ∈ table.rows, inSession sessionId m = true → (∀ c ∈ cursor, m.stampKey < c) →
        m ∈ rows ∨ ∃ k ∈ bound, m.stampKey < k := by
  have hserves := listSessionMessages_serves_desc (J := J) cp sessionId pageSize
  have hkeys := hserves.distinct table htimely
  have hselected : ∀ m : Message J, m ∈ Keyset.select (fun m => OrderDual.toDual m.stampKey)
      (inSession sessionId) (cursor.map OrderDual.toDual) table.rows ↔
        m ∈ table.rows ∧ inSession sessionId m = true ∧ ∀ c ∈ cursor, m.stampKey < c := by
    intro m
    rw [Keyset.mem_select]
    cases cursor <;> simp
  have hsorted := Keyset.select_increasing (p := inSession sessionId) hkeys
    (cursor.map OrderDual.toDual)
  have hserved := hserves.served table htimely (cursor.map OrderDual.toDual) fun c hc => by
    obtain ⟨k, hk, rfl⟩ := Option.map_eq_some_iff.1 hc
    exact hgood k hk
  have htext : (cursor.map OrderDual.toDual).map
      (fun k => stampCursor (OrderDual.ofDual k)) = cursor.map stampCursor := by
    cases cursor <;> rfl
  rw [htext] at hserved
  rcases Keyset.page_split (p := inSession sessionId) hkeys hserves.positive
    (cursor.map OrderDual.toDual) with ⟨hlast, hall, -⟩ | ⟨before, r, hpage, hlength, hsplit⟩
  · refine ⟨_, none, ?_, hsorted, fun m hm => (hselected m).1 hm, nofun,
      fun m hm hin hbefore => Or.inl ((hselected m).2 ⟨hm, hin, hbefore⟩)⟩
    rw [getMessages, hserved, hlast, hall]
    rfl
  · have hsel : ∀ m, m ∈ before ++ [r] → m ∈ Keyset.select
        (fun m => OrderDual.toDual m.stampKey) (inSession sessionId)
        (cursor.map OrderDual.toDual) table.rows := by
      intro m hm
      rw [hsplit]
      rcases List.mem_append.1 hm with hm | hm
      · exact List.mem_append_left _ hm
      · rw [List.mem_singleton.1 hm]
        simp
    rw [hsplit, List.append_cons, List.pairwise_append] at hsorted
    refine ⟨before ++ [r], some r.stampKey, ?_, hsorted.1, fun m hm => (hselected m).1 (hsel m hm),
      ?_, fun m hm hin hbefore => ?_⟩
    · rw [getMessages, hserved, hpage]
      rfl
    · rintro k ⟨⟩
      refine ⟨htimely r ((hselected r).1 (hsel r (by simp))).1, ?_, fun m hm => ?_⟩
      · rw [List.length_append, List.length_singleton, hlength]
        decide
      · rcases List.mem_append.1 hm with hm | hm
        · exact ((List.pairwise_append.1 hsorted.1).2.2 m hm r (by simp)).le
        · rw [List.mem_singleton.1 hm]
    · have hmem := (hselected m).2 ⟨hm, hin, hbefore⟩
      rw [hsplit, List.append_cons] at hmem
      rcases List.mem_append.1 hmem with hmem | hmem
      · exact Or.inl hmem
      · exact Or.inr ⟨r.stampKey, rfl, (Keyset.mem_select.1 hmem).2.2 _ rfl⟩

/-! ## Runs -/

/-- The server's table, and the phone on one of its sessions. -/
structure World (J : Type) where
  table : Messages J
  data : HistoryData J
  /-- The session's messages that came since the last load, less those that a turn committed. -/
  unseen : List UUID

inductive Event (J : Type) where
  /-- The server commits a message, of this session or another. -/
  | insert (m : Message J)
  /-- The first page is loaded. -/
  | load
  | fetchOlder
  | commitTurn (user assistant : ServerMessage J)

section Step

variable (cp : CursorPlatform) (sessionId : UUID)

/-- Nothing is loaded. -/
def World.start (table : Messages J) : World J :=
  ⟨table, none, (table.rows.filter (inSession sessionId)).map Message.id⟩

def step (w : World J) : Event J → World J
  | .insert m =>
    match w.table.insert m with
    | none => w
    | some table =>
      { w with
        table := table
        unseen := if inSession sessionId m then m.id :: w.unseen else w.unseen }
  | .load =>
    match getMessages cp w.table sessionId none with
    | .error _ => w
    | .ok page => { w with data := some [page], unseen := [] }
  | .fetchOlder =>
    match nextPageParam w.data with
    | none => w
    | some cursor =>
      match getMessages cp w.table sessionId (some cursor) with
      | .error _ => w
      | .ok page => { w with data := w.data.map fun pages => pages ++ [page] }
  | .commitTurn user assistant =>
    { w with
      data := commitTurn w.data user assistant
      unseen := w.unseen.filter fun id => id ≠ user.id && id ≠ assistant.id }

/-- The two newest messages of the session are the user's and its reply. -/
structure Newest (table : Messages J) (user reply : Message J) : Prop where
  user_mem : user ∈ table.rows ∧ inSession sessionId user = true
  reply_mem : reply ∈ table.rows ∧ inSession sessionId reply = true
  replied : user.stampKey < reply.stampKey
  newest : ∀ m ∈ table.rows, inSession sessionId m = true →
    m = reply ∨ m = user ∨ m.stampKey < user.stampKey

/-- A turn is committed to the cache when its two messages are the session's newest: no other turn
of the session has stored one after them, and it is no old message that was sent again.  `Alike` is
what the committed ones have of the server's. -/
def Orderly (Alike : ServerMessage J → Message J → Prop) (w : World J) : Event J → Prop
  | .insert m => inDatetimeRange m.createdAt
  | .commitTurn user assistant => ∃ m reply, Newest sessionId w.table m reply ∧
      Alike user m ∧ Alike assistant reply
  | _ => True

end Step

/-! ## The invariant -/

/-- The pages of the cache are these rows of the table; the session's other rows are unseen, or
before the bound of the last page. -/
structure Coherent (sessionId : UUID) (Alike : ServerMessage J → Message J → Prop) (w : World J)
    (pages : List (List (Message J))) (bound : Option StampKey) : Prop where
  timely : w.table.Timely
  alike : List.Forall₂ (List.Forall₂ Alike) ((w.data.getD []).map MessagesPage.items) pages
  sorted : pages.flatten.Pairwise fun m n => n.stampKey < m.stampKey
  rows : ∀ m ∈ pages.flatten, m ∈ w.table.rows ∧ inSession sessionId m = true
  /-- A first page with others after it is no short one. -/
  first : ∀ page rest, pages = page :: rest → rest ≠ [] ∨ bound.isSome = true → 2 ≤ page.length
  cursor : nextPageParam w.data = bound.map stampCursor
  good : ∀ k ∈ bound, k.Good
  within : ∀ k ∈ bound, ∀ m ∈ pages.flatten, k ≤ m.stampKey
  complete : ∀ m ∈ w.table.rows, inSession sessionId m = true →
    m ∈ pages.flatten ∨ m.id ∈ w.unseen ∨ ∃ k ∈ bound, m.stampKey < k

section Invariant

variable {cp : CursorPlatform} {sessionId : UUID} {Alike : ServerMessage J → Message J → Prop}
  {w : World J} {pages : List (List (Message J))} {bound : Option StampKey}

theorem coherent_start {table : Messages J} (htimely : table.Timely) :
    Coherent sessionId Alike (World.start sessionId table) [] none where
  timely := htimely
  alike := .nil
  sorted := .nil
  rows _ hm := absurd hm List.not_mem_nil
  first := nofun
  cursor := rfl
  good := nofun
  within := nofun
  complete _ hm hin :=
    Or.inr (Or.inl (List.mem_map_of_mem (List.mem_filter.2 ⟨hm, hin⟩)))

/-- **A message comes.** -/
theorem Coherent.insert (h : Coherent sessionId Alike w pages bound) {m : Message J}
    {table : Messages J} (hrows : table.rows = w.table.rows ++ [m])
    (htime : inDatetimeRange m.createdAt) :
    Coherent sessionId Alike (⟨table, w.data,
      if inSession sessionId m then m.id :: w.unseen else w.unseen⟩ : World J) pages bound := by
  refine { h with timely := ?_, rows := fun n hn => ?_, complete := fun n hn hin => ?_ }
  · intro n hn
    simp only [hrows, List.mem_append, List.mem_singleton] at hn
    rcases hn with hn | rfl
    · exact h.timely n hn
    · exact htime
  · obtain ⟨hmem, hin⟩ := h.rows n hn
    exact ⟨by simp only [hrows]; exact List.mem_append_left _ hmem, hin⟩
  · simp only [hrows, List.mem_append, List.mem_singleton] at hn
    rcases hn with hn | rfl
    · refine (h.complete n hn hin).imp_right (Or.imp_left fun hunseen => ?_)
      split
      · exact List.mem_cons_of_mem _ hunseen
      · exact hunseen
    · exact Or.inr (Or.inl (by simp [hin]))

/-- The entries of a page that the server serves. -/
theorem forall₂_messageRead (hread : ∀ m, Alike (messageRead m) m) (rows : List (Message J)) :
    List.Forall₂ Alike (rows.map messageRead) rows :=
  List.forall₂_map_left_iff.2 (List.forall₂_same.2 fun m _ => hread m)

/-- **The first page is loaded.** -/
theorem coherent_load (hread : ∀ m, Alike (messageRead m) m) (htimely : w.table.Timely) :
    ∃ pages bound, Coherent sessionId Alike (step cp sessionId w .load) pages bound := by
  obtain ⟨rows, bound, hget, hsorted, hrows, hbound, hall⟩ :=
    getMessages_spec cp sessionId htimely none nofun
  simp only [Option.map_none] at hget
  refine ⟨[rows], bound, ?_⟩
  simp only [step, hget]
  exact {
    timely := htimely
    alike := .cons (forall₂_messageRead hread rows) .nil
    sorted := by simpa using hsorted
    rows := fun m hm => by
      obtain ⟨hmem, hin, -⟩ := hrows m (by simpa using hm)
      exact ⟨hmem, hin⟩
    first := by
      rintro page rest ⟨⟩ (hne | hsome)
      · exact absurd rfl hne
      · obtain ⟨k, hk⟩ := Option.isSome_iff_exists.1 hsome
        exact (hbound k hk).2.1
    cursor := rfl
    good := fun k hk => (hbound k hk).1
    within := fun k hk m hm => (hbound k hk).2.2 m (by simpa using hm)
    complete := fun m hm hin => by
      rcases hall m hm hin nofun with hmem | hbefore
      · exact Or.inl (by simpa using hmem)
      · exact Or.inr (Or.inr hbefore) }

theorem nextPageParam_concat (pages : List (MessagesPage J)) (page : MessagesPage J) :
    nextPageParam (some (pages ++ [page])) = page.nextCursor := by
  simp [nextPageParam]

/-- **The next older page is loaded.** -/
theorem Coherent.fetchOlder (hread : ∀ m, Alike (messageRead m) m)
    (h : Coherent sessionId Alike w pages bound) {k : StampKey} (hk : bound = some k) :
    ∃ pages bound, Coherent sessionId Alike (step cp sessionId w .fetchOlder) pages bound := by
  subst hk
  obtain ⟨rows, bound, hget, hsorted, hrows, hbound, hall⟩ :=
    getMessages_spec cp sessionId h.timely (some k) fun _ hc => h.good _ hc
  have hcursor : nextPageParam w.data = some (stampCursor k) := h.cursor
  rw [Option.map_some] at hget
  obtain ⟨old, hdata⟩ : ∃ old, w.data = some old := by
    cases hd : w.data with
    | none => simp [nextPageParam, hd] at hcursor
    | some old => exact ⟨old, rfl⟩
  have halike := h.alike
  rw [hdata, Option.getD_some] at halike
  have hstep : step cp sessionId w .fetchOlder =
      { w with data := some (old ++ [⟨rows.map messageRead, bound.map stampCursor⟩]) } := by
    simp only [step, hcursor, hget]
    rw [hdata, Option.map_some]
  refine ⟨pages ++ [rows], bound, ?_⟩
  rw [hstep]
  have hflatten : (pages ++ [rows]).flatten = pages.flatten ++ rows := by simp
  exact {
    timely := h.timely
    alike := by
      rw [Option.getD_some, List.map_append]
      exact List.rel_append halike (.cons (forall₂_messageRead hread rows) .nil)
    sorted := by
      rw [hflatten]
      refine List.pairwise_append.2 ⟨h.sorted, hsorted, fun m hm n hn => ?_⟩
      exact ((hrows n hn).2.2 k rfl).trans_le (h.within k rfl m hm)
    rows := fun m hm => by
      rw [hflatten] at hm
      rcases List.mem_append.1 hm with hm | hm
      · exact h.rows m hm
      · exact ⟨(hrows m hm).1, (hrows m hm).2.1⟩
    first := by
      intro page rest hpages _
      cases pages with
      | nil =>
        -- the cursor came from a page
        rw [List.map_eq_nil_iff.1 (List.forall₂_nil_right_iff.1 halike)] at hdata
        rw [hdata] at hcursor
        cases hcursor
      | cons page' rest' =>
        cases hpages
        exact h.first _ _ rfl (Or.inr rfl)
    cursor := nextPageParam_concat ..
    good := fun k hk => (hbound k hk).1
    within := fun k' hk' m hm => by
      obtain ⟨-, hlength, hwithin⟩ := hbound k' hk'
      rw [hflatten] at hm
      rcases List.mem_append.1 hm with hm | hm
      · obtain ⟨r, hr⟩ := List.exists_mem_of_length_pos (by omega : 0 < rows.length)
        exact ((hwithin r hr).trans_lt ((hrows r hr).2.2 k rfl)).le.trans (h.within k rfl m hm)
      · exact hwithin m hm
    complete := fun m hm hin => by
      rw [hflatten]
      rcases h.complete m hm hin with hmem | hunseen | ⟨k', ⟨⟩, hlt⟩
      · exact Or.inl (List.mem_append_left _ hmem)
      · exact Or.inr (Or.inl hunseen)
      · rcases hall m hm hin (by rintro c ⟨⟩; exact hlt) with hmem | hbefore
        · exact Or.inl (List.mem_append_right _ hmem)
        · exact Or.inr (Or.inr hbefore) }

/-- A page of two rows reaches down to the older of the two newest. -/
theorem Coherent.reaches (h : Coherent sessionId Alike w pages bound) {m reply : Message J}
    (hnewest : Newest sessionId w.table m reply) {page : List (Message J)}
    {rest : List (List (Message J))} (hpages : pages = page :: rest) (hlength : 2 ≤ page.length) :
    ∃ n ∈ page, n.stampKey ≤ m.stampKey := by
  subst hpages
  have hsorted := h.sorted
  rw [List.flatten_cons, List.pairwise_append] at hsorted
  match page, hlength with
  | a :: b :: more, _ =>
    have hba : b.stampKey < a.stampKey := (List.pairwise_cons.1 hsorted.1).1 b (by simp)
    have hrow : ∀ x ∈ a :: b :: more, x = reply ∨ x = m ∨ x.stampKey < m.stampKey := by
      intro x hx
      obtain ⟨hmem, hin⟩ := h.rows x (by rw [List.flatten_cons]; exact List.mem_append_left _ hx)
      exact hnewest.newest x hmem hin
    rcases hrow a (by simp) with rfl | rfl | hlt
    · rcases hrow b (by simp) with rfl | rfl | hlt
      · exact absurd hba (lt_irrefl _)
      · exact ⟨_, by simp, le_rfl⟩
      · exact ⟨b, by simp, hlt.le⟩
    · exact ⟨_, by simp, le_rfl⟩
    · exact ⟨a, by simp, hlt.le⟩

/-- The pages after the first have nothing of the two newest rows. -/
theorem Coherent.later_older (h : Coherent sessionId Alike w pages bound) {m reply : Message J}
    (hnewest : Newest sessionId w.table m reply) {page : List (Message J)}
    {rest : List (List (Message J))} (hpages : pages = page :: rest) {n : Message J}
    (hn : n ∈ rest.flatten) : n.stampKey < m.stampKey := by
  have hrest : rest ≠ [] := by
    rintro rfl
    cases hn
  obtain ⟨b, hb, hle⟩ := h.reaches hnewest hpages (h.first page rest hpages (Or.inl hrest))
  have hsorted := h.sorted
  rw [hpages, List.flatten_cons, List.pairwise_append] at hsorted
  exact (hsorted.2.2 b hb n hn).trans_le hle

/-- The rows without the two of a turn. -/
def without (m reply : Message J) (rows : List (Message J)) : List (Message J) :=
  rows.filter fun n => n.id ≠ m.id && n.id ≠ reply.id

theorem mem_without {m reply n : Message J} {rows : List (Message J)} :
    n ∈ without m reply rows ↔ n ∈ rows ∧ n.id ≠ m.id ∧ n.id ≠ reply.id := by
  simp [without]

section Commit

variable {user assistant : ServerMessage J} {m reply : Message J}

/-- A row other than the two of the turn has another id. -/
theorem Newest.id_ne (h : Newest sessionId w.table m reply) {n : Message J}
    (hn : n ∈ w.table.rows) (hne : n ≠ m ∧ n ≠ reply) : n.id ≠ m.id ∧ n.id ≠ reply.id :=
  ⟨fun heq => hne.1 (w.table.table.eq_of_key_eq hn h.user_mem.1 heq),
    fun heq => hne.2 (w.table.table.eq_of_key_eq hn h.reply_mem.1 heq)⟩

/-- What is unseen, and not of the turn, stays unseen. -/
theorem unseen_commit {ids : List UUID} {n : Message J} (huser : user.id = m.id)
    (hassistant : assistant.id = reply.id) (hne : n.id ≠ m.id ∧ n.id ≠ reply.id)
    (hn : n.id ∈ ids) : n.id ∈ ids.filter fun id => id ≠ user.id && id ≠ assistant.id := by
  rw [List.mem_filter, huser, hassistant]
  exact ⟨hn, by simpa using hne⟩

/-- The first pair of an empty cache. -/
theorem Coherent.commit_empty (h : Coherent sessionId Alike w pages bound)
    (hnewest : Newest sessionId w.table m reply) (huser : Alike user m)
    (hassistant : Alike assistant reply) (huserId : user.id = m.id)
    (hassistantId : assistant.id = reply.id) (hempty : w.data.getD [] = []) :
    Coherent sessionId Alike ⟨w.table, some [⟨[assistant, user], none⟩],
      w.unseen.filter fun id => id ≠ user.id && id ≠ assistant.id⟩ [[reply, m]] none where
  timely := h.timely
  alike := .cons (.cons hassistant (.cons huser .nil)) .nil
  sorted := by simpa using hnewest.replied
  rows n hn := by
    simp only [List.flatten_cons, List.flatten_nil, List.append_nil, List.mem_cons,
      List.not_mem_nil, or_false] at hn
    rcases hn with rfl | rfl
    · exact hnewest.reply_mem
    · exact hnewest.user_mem
  first := by
    rintro page rest ⟨⟩ _
    exact le_rfl
  cursor := rfl
  good := nofun
  within := nofun
  complete n hn hin := by
    by_cases hne : n ≠ m ∧ n ≠ reply
    · refine Or.inr (Or.inl (unseen_commit huserId hassistantId (hnewest.id_ne hn hne) ?_))
      have halike := h.alike
      have hcursor := h.cursor
      rw [hempty, List.map_nil, List.forall₂_nil_left_iff] at halike
      rw [nextPageParam, hempty] at hcursor
      rcases h.complete n hn hin with hmem | hunseen | ⟨k, hk, -⟩
      · rw [halike] at hmem
        cases hmem
      · exact hunseen
      · rw [Option.mem_def.1 hk] at hcursor
        cases hcursor
    · left
      simp only [ne_eq, not_and_or, not_not] at hne
      rcases hne with rfl | rfl <;> simp

theorem nextPageParam_commit (page : MessagesPage J) (items : List (ServerMessage J))
    (rest : List (MessagesPage J)) :
    nextPageParam (some ({ page with items := items } :: rest)) =
      nextPageParam (some (page :: rest)) := by
  cases rest with
  | nil => rfl
  | cons _ _ => rfl

/-- A pair on top of the first page. -/
theorem Coherent.commit_first (hid : ∀ s n, Alike s n → s.id = n.id)
    {page : MessagesPage J} {rest : List (MessagesPage J)} {rows : List (Message J)}
    {others : List (List (Message J))} (h : Coherent sessionId Alike w (rows :: others) bound)
    (hdata : w.data = some (page :: rest)) (hnewest : Newest sessionId w.table m reply)
    (huser : Alike user m) (hassistant : Alike assistant reply) :
    Coherent sessionId Alike ⟨w.table, commitTurn w.data user assistant,
        w.unseen.filter fun id => id ≠ user.id && id ≠ assistant.id⟩
      ((reply :: m :: without m reply rows) :: others) bound := by
  have huserId := hid _ _ huser
  have hassistantId := hid _ _ hassistant
  have halike := h.alike
  rw [hdata, Option.getD_some, List.map_cons, List.forall₂_cons] at halike
  have hflatten : ((reply :: m :: without m reply rows) :: others).flatten =
      reply :: m :: (without m reply rows ++ others.flatten) := rfl
  have hsub : (without m reply rows ++ others.flatten).Sublist (rows :: others).flatten :=
    List.filter_sublist.append_right _
  have hbelow : ∀ n ∈ without m reply rows ++ others.flatten, n.stampKey < m.stampKey := by
    intro n hn
    rcases List.mem_append.1 hn with hn | hn
    · obtain ⟨hmem, hne, hne'⟩ := mem_without.1 hn
      obtain ⟨hrow, hin⟩ := h.rows n (List.mem_append_left _ hmem)
      rcases hnewest.newest n hrow hin with rfl | rfl | hlt
      · exact absurd rfl hne'
      · exact absurd rfl hne
      · exact hlt
    · exact h.later_older hnewest rfl hn
  rw [hdata]
  exact {
    timely := h.timely
    alike := by
      refine .cons (.cons hassistant (.cons huser ?_)) halike.2
      refine List.rel_filter (fun s n hsn => ?_) halike.1
      simp only [hid s n hsn, huserId, hassistantId]
    sorted := by
      rw [hflatten, List.pairwise_cons, List.pairwise_cons]
      refine ⟨fun n hn => ?_, hbelow, h.sorted.sublist hsub⟩
      rcases List.mem_cons.1 hn with rfl | hn
      · exact hnewest.replied
      · exact (hbelow n hn).trans hnewest.replied
    rows := fun n hn => by
      rw [hflatten, List.mem_cons, List.mem_cons] at hn
      rcases hn with rfl | rfl | hn
      · exact hnewest.reply_mem
      · exact hnewest.user_mem
      · exact h.rows n (hsub.subset hn)
    first := by
      rintro page rest ⟨⟩ _
      exact Nat.le_add_left 2 _
    cursor := by
      rw [← h.cursor, hdata]
      exact nextPageParam_commit ..
    good := h.good
    within := fun k hk n hn => by
      have hlength := h.first rows others rfl (Or.inr (Option.isSome_iff_exists.2 ⟨k, hk⟩))
      obtain ⟨b, hb, hle⟩ := h.reaches hnewest rfl hlength
      have hkm : k ≤ m.stampKey := (h.within k hk b (List.mem_append_left _ hb)).trans hle
      rw [hflatten, List.mem_cons, List.mem_cons] at hn
      rcases hn with rfl | rfl | hn
      · exact hkm.trans hnewest.replied.le
      · exact hkm
      · exact h.within k hk n (hsub.subset hn)
    complete := fun n hn hin => by
      rw [hflatten]
      by_cases hne : n ≠ m ∧ n ≠ reply
      · have hids := hnewest.id_ne hn hne
        rcases h.complete n hn hin with hmem | hunseen | hbefore
        · left
          rcases List.mem_append.1 hmem with hmem | hmem
          · have hkept : n ∈ without m reply rows := mem_without.2 ⟨hmem, hids⟩
            simp [hkept]
          · simp [hmem]
        · exact Or.inr (Or.inl (unseen_commit huserId hassistantId hids hunseen))
        · exact Or.inr (Or.inr hbefore)
      · left
        simp only [ne_eq, not_and_or, not_not] at hne
        rcases hne with rfl | rfl <;> simp }

/-- **A turn is committed to the cache.** -/
theorem Coherent.commit (hid : ∀ s n, Alike s n → s.id = n.id)
    (h : Coherent sessionId Alike w pages bound) (hnewest : Newest sessionId w.table m reply)
    (huser : Alike user m) (hassistant : Alike assistant reply) :
    ∃ pages bound,
      Coherent sessionId Alike (step cp sessionId w (.commitTurn user assistant)) pages bound := by
  cases hdata : w.data with
  | none =>
    have hstep := h.commit_empty hnewest huser hassistant (hid _ _ huser) (hid _ _ hassistant)
      (by rw [hdata]; rfl)
    exact ⟨_, _, by simpa only [step, hdata, commitTurn] using hstep⟩
  | some stored =>
    cases stored with
    | nil =>
      have hstep := h.commit_empty hnewest huser hassistant (hid _ _ huser) (hid _ _ hassistant)
        (by rw [hdata]; rfl)
      exact ⟨_, _, by simpa only [step, hdata, commitTurn] using hstep⟩
    | cons page rest =>
      cases pages with
      | nil =>
        have halike := h.alike
        rw [hdata] at halike
        cases halike
      | cons rows others =>
        exact ⟨_, _, h.commit_first hid hdata hnewest huser hassistant⟩

end Commit

/-- **One event.** -/
theorem coherent_step (hread : ∀ m, Alike (messageRead m) m)
    (hid : ∀ s n, Alike s n → s.id = n.id) (h : Coherent sessionId Alike w pages bound)
    {e : Event J} (he : Orderly sessionId Alike w e) :
    ∃ pages bound, Coherent sessionId Alike (step cp sessionId w e) pages bound := by
  cases e with
  | insert m =>
    simp only [step]
    cases hinsert : w.table.insert m with
    | none => exact ⟨_, _, h⟩
    | some table => exact ⟨_, _, h.insert (Messages.insert_eq_some.1 hinsert).2.2.2 he⟩
  | load => exact coherent_load hread h.timely
  | fetchOlder =>
    cases hbound : bound with
    | none =>
      have hcursor : nextPageParam w.data = none := by rw [h.cursor, hbound, Option.map_none]
      exact ⟨pages, bound, by simpa only [step, hcursor] using h⟩
    | some k => exact h.fetchOlder hread hbound
  | commitTurn user assistant =>
    obtain ⟨m, reply, hnewest, huser, hassistant⟩ := he
    exact h.commit hid hnewest huser hassistant

/-- What the invariant says of the messages in the cache. -/
theorem Coherent.history (h : Coherent sessionId Alike w pages bound) :
    ∃ rows : List (Message J), List.Forall₂ Alike (cached w.data) rows ∧
      rows.Pairwise (fun m n => n.stampKey < m.stampKey) ∧
      (∀ m ∈ rows, m ∈ w.table.rows ∧ inSession sessionId m = true) ∧
      ∀ m ∈ w.table.rows, inSession sessionId m = true →
        m ∈ rows ∨ m.id ∈ w.unseen ∨
          ((nextPageParam w.data).isSome = true ∧ ∀ n ∈ rows, m.stampKey < n.stampKey) := by
  refine ⟨pages.flatten, List.rel_flatten h.alike, h.sorted, h.rows, fun m hm hin => ?_⟩
  refine (h.complete m hm hin).imp_right (Or.imp_right ?_)
  rintro ⟨k, hk, hlt⟩
  refine ⟨?_, fun n hn => hlt.trans_le (h.within k hk n hn)⟩
  rw [h.cursor, Option.mem_def.1 hk]
  rfl

end Invariant

theorem coherent_run (cp : CursorPlatform) (sessionId : UUID)
    {Alike : ServerMessage J → Message J → Prop} (hread : ∀ m, Alike (messageRead m) m)
    (hid : ∀ s n, Alike s n → s.id = n.id) {table : Messages J} (htimely : table.Timely)
    {es : List (Event J)}
    (horderly : ∀ p ∈ Runs.steps (step cp sessionId) (World.start sessionId table) es,
      Orderly sessionId Alike p.1 p.2) {w : World J}
    (hw : w ∈ Runs.states (step cp sessionId) (World.start sessionId table) es) :
    ∃ pages bound, Coherent sessionId Alike w pages bound := by
  refine Runs.inv_states_of_steps (I := fun w => ∃ pages bound, Coherent sessionId Alike w pages
    bound) ?_ ⟨_, _, coherent_start htimely⟩ horderly w hw
  rintro w e ⟨pages, bound, h⟩ he
  exact coherent_step hread hid h he

/-- What a committed message has of the server's row. -/
def Same (s : ServerMessage J) (m : Message J) : Prop :=
  s.id = m.id ∧ s.role = m.role ∧ s.content = m.content ∧ s.events = m.events

instance [DecidableEq J] (s : ServerMessage J) (m : Message J) : Decidable (Same s m) :=
  inferInstanceAs (Decidable (_ ∧ _))

def askedRow : Message Unit :=
  ⟨3, 1, 7, .user, "hi".toList, none, none, some "UTC".toList, none, none, 5, none⟩

def repliedRow : Message Unit :=
  ⟨4, 1, 7, .assistant, "hello".toList, some [.text ⟨1, "hello".toList⟩], some 3, none, none, none,
    6, none⟩

/-- The screen is loaded while the reply streams; then the turn finishes. -/
def oneTurn : List (Event Unit) :=
  [.insert askedRow, .load, .insert repliedRow,
    .commitTurn { messageRead askedRow with createdAt := 4 }
      { messageRead repliedRow with createdAt := 7 }]

/-- `Message` of `lib/types.ts`; the tool renderers make the card from the bubble's events. -/
structure RenderMessage (J : Type) where
  id : Text
  sender : Role
  bubble : Bubble J
  timestamp : Time
  isStreaming : Bool

/-- What of it stays when a turn is no longer live. -/
def RenderMessage.lasting (r : RenderMessage J) : Text × Role × Bubble J :=
  (r.id, r.sender, r.bubble)

/-- `adaptServerMessage`. -/
def renderServer (m : ServerMessage J) : RenderMessage J where
  id := uuidText m.id
  sender := m.role
  bubble :=
    match m.role with
    | .user => ⟨m.content, []⟩
    | .assistant => adaptServerMessage m.content m.events
  timestamp := m.createdAt
  isStreaming := false

/-- The id of the turn's assistant message. -/
def assistantId (turn : ActiveTurn J) : Text :=
  match turn.assistantMessageId with
  | some id => uuidText id
  | none => "pending:".toList ++ uuidText turn.clientMessageId

/-- `adaptActiveTurn`. -/
def renderTurn (turn : ActiveTurn J) : List (RenderMessage J) :=
  [{ id := uuidText turn.clientMessageId
     sender := .user
     bubble := ⟨turn.userText, []⟩
     timestamp := turn.startedAt
     isStreaming := false },
   { id := assistantId turn
     sender := .assistant
     bubble := adaptActiveTurn turn
     timestamp := turn.startedAt
     isStreaming := turn.status = .streaming }]

/-- The test of `filtered`: the row is none of the turn in flight. -/
def isOther (clientMessageId : Text) (assistantMessageId : Option Text) (id : Text) : Bool :=
  id ≠ clientMessageId && some id ≠ assistantMessageId

/-- `messages` of `useChat`. -/
def screen (data : HistoryData J) (activeTurn : Option (ActiveTurn J)) : List (RenderMessage J) :=
  let historyMessages := (cached data).reverse.map renderServer
  match activeTurn with
  | none => historyMessages
  | some turn =>
    let assistantMessageId := turn.assistantMessageId.map uuidText
    let filtered := historyMessages.filter fun m =>
      isOther (uuidText turn.clientMessageId) assistantMessageId m.id
    filtered ++ renderTurn turn

theorem uuidText_inj {a b : UUID} : uuidText a = uuidText b ↔ a = b := by
  constructor
  · intro h
    have hread := congrArg uuidOf h
    rw [uuidOf_uuidText, uuidOf_uuidText] at hread
    exact Option.some.inj hread
  · rintro rfl
    rfl

/-- The synthetic id is no id of a row. -/
theorem pending_ne_uuidText (id id' : UUID) :
    "pending:".toList ++ uuidText id ≠ uuidText id' := by
  intro h
  have hmem : 'p' ∈ uuidText id' := by
    rw [← h]
    exact List.mem_append_left _ (by decide)
  rcases uuidText_mem hmem with hdash | ⟨d, hd, hdigit⟩
  · cases hdash
  · revert hdigit
    revert d
    decide

/-- The row is one of the turn's. -/
def isOf (turn : ActiveTurn J) (id : UUID) : Bool :=
  id = turn.clientMessageId || some id = turn.assistantMessageId

theorem renderServer_id (m : ServerMessage J) : (renderServer m).id = uuidText m.id := rfl

theorem isOther_text (turn : ActiveTurn J) (id : UUID) :
    isOther (uuidText turn.clientMessageId) (turn.assistantMessageId.map uuidText) (uuidText id) =
      !isOf turn id := by
  have hassistant : some (uuidText id) = turn.assistantMessageId.map uuidText ↔
      some id = turn.assistantMessageId := by
    cases turn.assistantMessageId with
    | none => exact ⟨nofun, nofun⟩
    | some other => rw [Option.map_some, Option.some_inj, Option.some_inj, uuidText_inj]
  rw [Bool.eq_iff_iff]
  simp only [isOther, isOf, ne_eq, Bool.and_eq_true, decide_eq_true_eq, Bool.not_eq_true',
    Bool.or_eq_false_iff, decide_eq_false_iff_not, uuidText_inj, hassistant]

/-- The screen during a turn: the history without its messages, then the turn. -/
theorem screen_some (data : HistoryData J) (turn : ActiveTurn J) :
    screen data (some turn) =
      ((cached data).filter fun m => !isOf turn m.id).reverse.map renderServer ++
        renderTurn turn := by
  have hkept : ∀ m ∈ (cached data).reverse,
      (isOther (uuidText turn.clientMessageId) (turn.assistantMessageId.map uuidText) ∘
        RenderMessage.id ∘ renderServer) m = !isOf turn m.id := by
    intro m _
    rw [Function.comp_apply, Function.comp_apply, renderServer_id]
    exact isOther_text turn m.id
  rw [screen, List.filter_map, ← List.filter_reverse, ← List.filter_congr hkept]
  rfl

section Screen

variable {sessionId : UUID} {Alike : ServerMessage J → Message J → Prop} {w : World J}
  {pages : List (List (Message J))} {bound : Option StampKey}

/-- What is cached are rows of the table. -/
theorem Coherent.alike_cached (h : Coherent sessionId Alike w pages bound) :
    List.Forall₂ Alike (cached w.data) pages.flatten :=
  List.rel_flatten h.alike

/-- Ids of cached messages are ids of their rows. -/
theorem ids_of_alike (hid : ∀ s n, Alike s n → s.id = n.id) {stored : List (ServerMessage J)}
    {rows : List (Message J)} (h : List.Forall₂ Alike stored rows) :
    stored.map ServerMessage.id = rows.map Message.id := by
  induction h with
  | nil => rfl
  | cons hfirst _ ih => rw [List.map_cons, List.map_cons, hid _ _ hfirst, ih]

theorem Coherent.ids_nodup (hid : ∀ s n, Alike s n → s.id = n.id)
    (h : Coherent sessionId Alike w pages bound) :
    ((cached w.data).map ServerMessage.id).Nodup := by
  rw [ids_of_alike hid h.alike_cached, List.Nodup, List.pairwise_map]
  refine h.sorted.imp_of_mem fun {m n} hm hn hlt heq => ?_
  rw [w.table.table.eq_of_key_eq (h.rows m hm).1 (h.rows n hn).1 heq] at hlt
  exact lt_irrefl _ hlt

/-- The messages of the later pages are none of the newest two. -/
theorem Coherent.later_ids (hid : ∀ s n, Alike s n → s.id = n.id)
    (h : Coherent sessionId Alike w pages bound) {m reply : Message J}
    (hnewest : Newest sessionId w.table m reply) {first : MessagesPage J}
    {rest : List (MessagesPage J)} (hdata : w.data = some (first :: rest)) {s : ServerMessage J}
    (hs : s ∈ (rest.map MessagesPage.items).flatten) : s.id ≠ m.id ∧ s.id ≠ reply.id := by
  have halike := h.alike
  rw [hdata, Option.getD_some, List.map_cons] at halike
  obtain ⟨page, others, -, hothers, rfl⟩ := List.forall₂_cons_left_iff.1 halike
  have hids : s.id ∈ others.flatten.map Message.id := by
    rw [← ids_of_alike hid (List.rel_flatten hothers)]
    exact List.mem_map_of_mem hs
  obtain ⟨n, hn, heq⟩ := List.mem_map.1 hids
  have holder := h.later_older hnewest rfl hn
  have hrow := (h.rows n (List.mem_append_right _ hn)).1
  rw [← heq]
  refine hnewest.id_ne hrow ⟨?_, ?_⟩
  · rintro rfl
    exact lt_irrefl _ holder
  · rintro rfl
    exact lt_asymm holder hnewest.replied

/-- **A committed turn in the cache**: the pair in front, and nothing of it behind. -/
theorem Coherent.cached_commit (hid : ∀ s n, Alike s n → s.id = n.id)
    (h : Coherent sessionId Alike w pages bound) {m reply : Message J}
    (hnewest : Newest sessionId w.table m reply) {user assistant : ServerMessage J}
    (huser : user.id = m.id) (hassistant : assistant.id = reply.id) :
    cached (commitTurn w.data user assistant) = assistant :: user ::
      (cached w.data).filter fun s => s.id ≠ user.id && s.id ≠ assistant.id := by
  match hdata : w.data with
  | none | some [] => rfl
  | some (first :: rest) =>
    have hkept : (rest.map MessagesPage.items).flatten.filter (fun s =>
        s.id ≠ user.id && s.id ≠ assistant.id) = (rest.map MessagesPage.items).flatten := by
      rw [List.filter_eq_self]
      intro s hs
      simpa [huser, hassistant] using h.later_ids hid hnewest hdata hs
    simp only [cached, commitTurn, Option.getD_some, List.map_cons, List.flatten_cons,
      List.filter_append, hkept, List.cons_append]

theorem screen_none (data : HistoryData J) :
    screen data none = (cached data).reverse.map renderServer := rfl

/-- The ids of the two messages of the turn. -/
theorem renderTurn_id (turn : ActiveTurn J) :
    (renderTurn turn).map RenderMessage.id =
      [uuidText turn.clientMessageId, assistantId turn] := rfl

theorem assistantId_ne {turn : ActiveTurn J} {id : UUID} (h : isOf turn id = false) :
    uuidText id ≠ uuidText turn.clientMessageId ∧ uuidText id ≠ assistantId turn := by
  obtain ⟨huser, hassistant⟩ := Bool.or_eq_false_iff.1 h
  refine ⟨fun heq => of_decide_eq_false huser (uuidText_inj.1 heq), fun heq => ?_⟩
  cases hturn : turn.assistantMessageId with
  | none =>
    rw [assistantId, hturn] at heq
    exact pending_ne_uuidText _ _ heq.symm
  | some other =>
    rw [assistantId, hturn] at heq
    rw [hturn] at hassistant
    exact of_decide_eq_false hassistant (congrArg some (uuidText_inj.1 heq))

/-- **Keys**: no two messages on the screen have one id. -/
theorem Coherent.screen_nodup (hid : ∀ s n, Alike s n → s.id = n.id)
    (h : Coherent sessionId Alike w pages bound) (activeTurn : Option (ActiveTurn J))
    (hturn : ∀ turn ∈ activeTurn, turn.assistantMessageId ≠ some turn.clientMessageId) :
    ((screen w.data activeTurn).map RenderMessage.id).Nodup := by
  have hnodup : ∀ stored : List (ServerMessage J), stored.Sublist (cached w.data) →
      ((stored.reverse.map renderServer).map RenderMessage.id).Nodup := by
    intro stored hsub
    rw [List.map_map, List.map_reverse, List.nodup_reverse]
    have hids := ((h.ids_nodup hid).sublist (hsub.map _)).map
      (f := uuidText) fun _ _ heq => uuidText_inj.1 heq
    rwa [List.map_map] at hids
  cases activeTurn with
  | none => exact hnodup _ (List.Sublist.refl _)
  | some turn =>
    rw [screen_some, List.map_append, renderTurn_id, List.nodup_append]
    refine ⟨hnodup _ List.filter_sublist, ?_, ?_⟩
    · have hne : uuidText turn.clientMessageId ≠ assistantId turn := by
        cases hassistant : turn.assistantMessageId with
        | none =>
          rw [assistantId, hassistant]
          exact (pending_ne_uuidText _ _).symm
        | some id =>
          rw [assistantId, hassistant]
          intro heq
          exact hturn turn rfl (hassistant.trans (congrArg some (uuidText_inj.1 heq).symm))
      simpa using hne
    · intro text htext other hother heq
      subst heq
      simp only [List.map_map, List.mem_map, List.mem_reverse, List.mem_filter,
        Function.comp_apply, renderServer_id, Bool.not_eq_true'] at htext
      obtain ⟨m, ⟨-, hm⟩, rfl⟩ := htext
      have hne := assistantId_ne hm
      rcases List.mem_cons.1 hother with heq | hother
      · exact hne.1 heq
      · exact hne.2 (List.mem_singleton.1 hother)

theorem getD_eventsOrNull (events : List (MeJournal.Event J)) :
    (eventsOrNull events).getD [] = events := by
  unfold eventsOrNull
  cases events <;> rfl

/-- The pair from the cache is the pair of the turn. -/
theorem renderServer_finishedPair (tz : Text) (now : Time) {turn : ActiveTurn J} {id : UUID}
    (hturn : turn.assistantMessageId = some id) :
    [(renderServer (finishedPair tz now id turn).1).lasting,
      (renderServer (finishedPair tz now id turn).2).lasting] =
        (renderTurn turn).map RenderMessage.lasting := by
  simp only [renderTurn, assistantId, hturn, List.map_cons, List.map_nil, RenderMessage.lasting,
    renderServer, finishedPair, MeJournal.adaptServerMessage, MeJournal.adaptActiveTurn,
    getD_eventsOrNull]

/-- **One commit**: the same messages before it, after it and without the turn. -/
theorem Coherent.screen_kept (hid : ∀ s n, Alike s n → s.id = n.id)
    (h : Coherent sessionId Alike w pages bound) {user reply : Message J}
    (hnewest : Newest sessionId w.table user reply) (tz : Text) (now : Time)
    {turn : ActiveTurn J} (huser : turn.clientMessageId = user.id)
    (hassistant : turn.assistantMessageId = some reply.id)
    {pair : ServerMessage J × ServerMessage J} (hpair : pair = finishedPair tz now reply.id turn) :
    screen (commitTurn w.data pair.1 pair.2) (some turn) = screen w.data (some turn) ∧
      (screen (commitTurn w.data pair.1 pair.2) none).map RenderMessage.lasting =
        (screen w.data (some turn)).map RenderMessage.lasting := by
  have hids : pair.1.id = turn.clientMessageId ∧ pair.2.id = reply.id := by
    rw [hpair]
    exact ⟨rfl, rfl⟩
  have hcached := h.cached_commit hid hnewest (hids.1.trans huser) hids.2
  have hother : (fun s : ServerMessage J => s.id ≠ pair.1.id && s.id ≠ pair.2.id) =
      fun s => !isOf turn s.id := by
    funext s
    simp [isOf, hassistant, hids]
  rw [hother] at hcached
  have hshown : isOf turn pair.1.id = true ∧ isOf turn pair.2.id = true := by
    simp [isOf, hassistant, hids]
  constructor
  · rw [screen_some, screen_some, hcached, List.filter_cons_of_neg (by simp [hshown]),
      List.filter_cons_of_neg (by simp [hshown]), List.filter_filter]
    simp only [Bool.and_self]
  · have hrendered := renderServer_finishedPair tz now hassistant
    rw [← hpair] at hrendered
    rw [screen_some, screen_none, hcached, List.map_append, ← hrendered]
    simp

end Screen

/-- The reply has come in; the turn is not committed yet. -/
def runningTurn : ActiveTurn Unit where
  clientMessageId := 3
  userText := "hi".toList
  startedAt := 4
  status := .streaming
  assistantMessageId := some 4
  events := ⟨[(1, .text ⟨1, "hello".toList⟩)], by decide⟩
  errorMessage := none

/-- The world before the commit of `oneTurn`. -/
def repliedWorld : World Unit :=
  Runs.run (step plainCursors 1) (World.start 1 Messages.empty) (oneTurn.take 3)

end ChatHistory

end MeJournal
