import MeJournal.Lib.Runs
import MeJournal.Python

/-!
# The session of the chat screen

`mobile/lib/chat/use-chat-session.ts`.  A callback of the hook keeps the state of the render it was
made in; what is set since shows only in the callbacks of later renders.  The answer to a
`POST /sessions` runs the `then` callback, and some time later the `finally` callback; anything may
happen in between.

* `phase_step` — as long as calls coalesce, there is one POST and one id.
* `since_step` — after a `clearSession`, one event brings no older id back.
* `clearedFor_run` — what a `clearSession` leaves behind reaches no later callback.
* `one_session_iff` — one POST and one id exactly when no call comes too late.
-/

namespace MeJournal

/-- Why a promise of `ensureSession` rejects. -/
inductive EnsureError where
  /-- `POST /sessions` failed. -/
  | request
  /-- `Error("session creation superseded")`. -/
  | superseded
  deriving DecidableEq

/-- A `POST /sessions`, with the promise made from it. -/
structure SessionPost where
  /-- The id in the server's answer. -/
  row : Option UUID
  /-- How the promise settles, once the answer is there. -/
  result : Option (Except EnsureError UUID)
  /-- The `finally` callback has run. -/
  settled : Bool

/-- What `ensureSession` returns. -/
inductive EnsureReply where
  | sessionId (id : UUID)
  /-- The promise of a POST. -/
  | promise (post : Nat)
  deriving DecidableEq

/-- A call of `ensureSession`, through the callback of a render. -/
structure EnsureCall where
  render : Nat
  reply : EnsureReply
  deriving DecidableEq

/-- `useChatSession`. -/
structure ChatSession where
  /-- The state as it was set last. -/
  sessionId : Option UUID
  /-- The state in each render so far. -/
  renders : List (Option UUID)
  /-- `inflight.current`, by the number of its POST. -/
  inflight : Option Nat
  posts : List SessionPost
  calls : List EnsureCall

/-- What happens without `clearSession`. -/
inductive HookEvent where
  | ensureSession (render : Nat)
  /-- The answer to a POST: an id, or a failure. -/
  | answer (post : Nat) (row : Option UUID)
  /-- The `finally` callback of a POST. -/
  | settle (post : Nat)
  | rerender
  deriving DecidableEq

inductive SessionEvent where
  | hook (e : HookEvent)
  | clearSession
  deriving DecidableEq

namespace ChatSession

/-- The first render. -/
def start : ChatSession where
  sessionId := none
  renders := [none]
  inflight := none
  posts := []
  calls := []

def called (s : ChatSession) (render : Nat) (reply : EnsureReply) : ChatSession :=
  { s with calls := s.calls ++ [⟨render, reply⟩] }

/-- `ensureSession`, of the given render. -/
def ensureSession (s : ChatSession) (render : Nat) : ChatSession :=
  match s.renders[render]? with
  | none => s
  | some (some id) => s.called render (.sessionId id)
  | some none =>
    match s.inflight with
    | some post => s.called render (.promise post)
    | none =>
      called
        { s with
          inflight := some s.posts.length
          posts := s.posts ++ [⟨none, none, false⟩] }
        render (.promise s.posts.length)

/-- The answer to a POST, and the `then` callback; a failure skips it. -/
def answer (s : ChatSession) (post : Nat) (row : Option UUID) : ChatSession :=
  match s.posts[post]? with
  | some ⟨_, none, settled⟩ =>
    match row with
    | none => { s with posts := s.posts.set post ⟨none, some (.error .request), settled⟩ }
    | some id =>
      if s.inflight ≠ some post then
        { s with posts := s.posts.set post ⟨row, some (.error .superseded), settled⟩ }
      else
        { s with
          sessionId := some id
          posts := s.posts.set post ⟨row, some (.ok id), settled⟩ }
  | _ => s

/-- The `finally` callback. -/
def settle (s : ChatSession) (post : Nat) : ChatSession :=
  match s.posts[post]? with
  | some ⟨row, some result, false⟩ =>
    { s with
      inflight := if s.inflight = some post then none else s.inflight
      posts := s.posts.set post ⟨row, some result, true⟩ }
  | _ => s

def rerender (s : ChatSession) : ChatSession :=
  { s with renders := s.renders ++ [s.sessionId] }

/-- `clearSession`. -/
def clearSession (s : ChatSession) : ChatSession :=
  { s with inflight := none, sessionId := none }

def hookStep (s : ChatSession) : HookEvent → ChatSession
  | .ensureSession render => s.ensureSession render
  | .answer post row => s.answer post row
  | .settle post => s.settle post
  | .rerender => s.rerender

def step (s : ChatSession) : SessionEvent → ChatSession
  | .hook e => s.hookStep e
  | .clearSession => s.clearSession

/-! ## What is to hold -/

/-- How a POST ends, once it is answered. -/
def result (s : ChatSession) (post : Nat) : Option (Except EnsureError UUID) :=
  s.posts[post]?.bind SessionPost.result

/-- The id the server answered to a POST. -/
def row (s : ChatSession) (post : Nat) : Option UUID := s.posts[post]?.bind SessionPost.row

/-- How a call ends. -/
def outcome (s : ChatSession) (c : EnsureCall) : Option (Except EnsureError UUID) :=
  match c.reply with
  | .sessionId id => some (.ok id)
  | .promise post => s.result post

/-- At most one `POST /sessions`, and all calls resolve to one id. -/
structure OneSession (s : ChatSession) : Prop where
  posts : s.posts.length ≤ 1
  same : ∃ id, ∀ c ∈ s.calls, ∀ r, s.outcome c = some r → r = .ok id

/-- The server never answers one id twice. -/
def UniqueRows (s : ChatSession) : Prop := ∀ i j id, s.row i = some id → s.row j = some id → i = j

/-- A call through a callback rendered after `before` resolves to no id from before: to none that
was answered to a POST of that time, and not to the one in the state. -/
def ClearedFor (before after : ChatSession) : Prop :=
  ∀ c ∈ after.calls, before.renders.length ≤ c.render → ∀ id, after.outcome c = some (.ok id) →
    (∀ post < before.posts.length, after.row post ≠ some id) ∧ before.sessionId ≠ some id

/-! ## The condition -/

/-- A call through a callback without an id comes before any POST has settled, and no POST fails. -/
def coalesces (s : ChatSession) : HookEvent → Bool
  | .ensureSession render =>
    s.renders[render]? != some none || s.posts.all fun p => !p.settled
  | .answer post none => (s.posts[post]?.map fun p => p.result.isSome).getD true
  | _ => true

/-! ## One POST -/

/-- How far the one session is. -/
inductive Phase : ChatSession → Prop
  | idle {renders : List (Option UUID)} (hrenders : ∀ r ∈ renders, r = none) :
      Phase ⟨none, renders, none, [], []⟩
  | sent {renders : List (Option UUID)} {calls : List EnsureCall}
      (hrenders : ∀ r ∈ renders, r = none) (hcalls : ∀ c ∈ calls, c.reply = .promise 0)
      (hcalled : calls ≠ []) :
      Phase ⟨none, renders, some 0, [⟨none, none, false⟩], calls⟩
  | answered {id : UUID} {renders : List (Option UUID)} {settled : Bool} {calls : List EnsureCall}
      (hrenders : ∀ r ∈ renders, r = none ∨ r = some id)
      (hcalls : ∀ c ∈ calls, c.reply = .promise 0 ∨ c.reply = .sessionId id) :
      Phase ⟨some id, renders, if settled then none else some 0,
        [⟨some id, some (.ok id), settled⟩], calls⟩

theorem phase_start : Phase start := .idle (by simp)

theorem oneSession_of_phase {s : ChatSession} (h : Phase s) : OneSession s := by
  cases h with
  | idle => exact ⟨by simp, 0, by simp⟩
  | sent _ hcalls _ =>
    refine ⟨by simp, 0, fun c hc r hr => ?_⟩
    simp [outcome, hcalls c hc, result] at hr
  | @answered id _ _ _ _ hcalls =>
    refine ⟨by simp, id, fun c hc r hr => ?_⟩
    rcases hcalls c hc with hreply | hreply
    · simpa [outcome, hreply, result] using hr.symm
    · simpa [outcome, hreply] using hr.symm

theorem phase_step_idle {renders : List (Option UUID)} (hrenders : ∀ r ∈ renders, r = none)
    (e : HookEvent) : Phase (hookStep ⟨none, renders, none, [], []⟩ e) := by
  cases e with
  | ensureSession render =>
    simp only [hookStep, ensureSession]
    cases hrender : renders[render]? with
    | none => exact .idle hrenders
    | some r =>
      obtain rfl := hrenders r (List.mem_of_getElem? hrender)
      exact .sent hrenders (by simp) (by simp)
  | answer post row => exact .idle hrenders
  | settle post => exact .idle hrenders
  | rerender => exact .idle (by simpa [or_imp, forall_and] using hrenders)

theorem phase_step_sent {renders : List (Option UUID)} {calls : List EnsureCall}
    (hrenders : ∀ r ∈ renders, r = none) (hcalls : ∀ c ∈ calls, c.reply = .promise 0)
    (hcalled : calls ≠ []) {e : HookEvent}
    (he : coalesces ⟨none, renders, some 0, [⟨none, none, false⟩], calls⟩ e = true) :
    Phase (hookStep ⟨none, renders, some 0, [⟨none, none, false⟩], calls⟩ e) := by
  cases e with
  | ensureSession render =>
    simp only [hookStep, ensureSession]
    cases hrender : renders[render]? with
    | none => exact .sent hrenders hcalls hcalled
    | some r =>
      obtain rfl := hrenders r (List.mem_of_getElem? hrender)
      exact .sent hrenders (by simpa [or_imp, forall_and] using hcalls) (by simp)
  | answer post row =>
    cases post with
    | zero =>
      cases row with
      | none => simp [coalesces] at he
      | some id =>
        exact @Phase.answered id _ false _ (fun r hr => Or.inl (hrenders r hr))
          fun c hc => Or.inl (hcalls c hc)
    | succ post => exact .sent hrenders hcalls hcalled
  | settle post =>
    cases post with
    | zero => exact .sent hrenders hcalls hcalled
    | succ post => exact .sent hrenders hcalls hcalled
  | rerender => exact .sent (by simpa [or_imp, forall_and] using hrenders) hcalls hcalled

theorem phase_step_answered {id : UUID} {renders : List (Option UUID)} {settled : Bool}
    {calls : List EnsureCall} (hrenders : ∀ r ∈ renders, r = none ∨ r = some id)
    (hcalls : ∀ c ∈ calls, c.reply = .promise 0 ∨ c.reply = .sessionId id) {e : HookEvent}
    (he : coalesces ⟨some id, renders, if settled then none else some 0,
      [⟨some id, some (.ok id), settled⟩], calls⟩ e = true) :
    Phase (hookStep ⟨some id, renders, if settled then none else some 0,
      [⟨some id, some (.ok id), settled⟩], calls⟩ e) := by
  have hcalled : ∀ render reply, (reply = .promise 0 ∨ reply = .sessionId id) →
      ∀ c ∈ calls ++ [⟨render, reply⟩], c.reply = .promise 0 ∨ c.reply = .sessionId id := by
    intro render reply hreply c hc
    rcases List.mem_append.1 hc with hc | hc
    · exact hcalls c hc
    · rwa [List.mem_singleton.1 hc]
  cases e with
  | ensureSession render =>
    simp only [hookStep, ensureSession]
    cases hrender : renders[render]? with
    | none => exact .answered hrenders hcalls
    | some r =>
      rcases hrenders r (List.mem_of_getElem? hrender) with rfl | rfl
      · cases settled with
        | true => simp [coalesces, hrender] at he
        | false => exact @Phase.answered id _ false _ hrenders (hcalled _ _ (Or.inl rfl))
      · exact .answered hrenders (hcalled _ _ (Or.inr rfl))
  | answer post row =>
    cases post with
    | zero => exact .answered hrenders hcalls
    | succ post => exact .answered hrenders hcalls
  | settle post =>
    cases post with
    | zero =>
      cases settled with
      | true => exact @Phase.answered id _ true _ hrenders hcalls
      | false => exact @Phase.answered id _ true _ hrenders hcalls
    | succ post => exact .answered hrenders hcalls
  | rerender =>
    refine .answered (fun r hr => ?_) hcalls
    rcases List.mem_append.1 hr with hr | hr
    · exact hrenders r hr
    · exact Or.inr (List.mem_singleton.1 hr)

/-- **One event**: calls that coalesce keep to one POST. -/
theorem phase_step {s : ChatSession} (h : Phase s) {e : HookEvent} (he : s.coalesces e = true) :
    Phase (s.hookStep e) := by
  cases h with
  | idle hrenders => exact phase_step_idle hrenders e
  | sent hrenders hcalls hcalled => exact phase_step_sent hrenders hcalls hcalled he
  | answered hrenders hcalls => exact phase_step_answered hrenders hcalls he

/-- A call that comes too late posts again, and a POST that fails rejects its calls. -/
theorem not_oneSession_step {s : ChatSession} (h : Phase s) {e : HookEvent}
    (he : s.coalesces e = false) : ¬ OneSession (s.hookStep e) := by
  cases h with
  | @idle renders hrenders =>
    cases e with
    | answer post row => cases row <;> simp [coalesces] at he
    | _ => simp [coalesces] at he
  | @sent renders calls hrenders hcalls hcalled =>
    cases e with
    | answer post row =>
      cases row with
      | some id => simp [coalesces] at he
      | none =>
        cases post with
        | succ post => simp [coalesces] at he
        | zero =>
          rintro ⟨_, id, hsame⟩
          obtain ⟨c, hc⟩ := List.exists_mem_of_ne_nil calls hcalled
          have hrejected := hsame c hc (.error .request)
            (by simp [outcome, hcalls c hc, result, hookStep, answer])
          cases hrejected
    | _ => simp [coalesces] at he
  | @answered id renders settled calls hrenders hcalls =>
    cases e with
    | ensureSession render =>
      simp only [coalesces, Bool.or_eq_false_iff, bne_eq_false_iff_eq, List.all_cons,
        List.all_nil, Bool.and_true, Bool.not_eq_false'] at he
      obtain ⟨hrender, rfl⟩ := he
      intro hone
      have hposts := hone.posts
      simp [hookStep, ensureSession, hrender, called] at hposts
    | answer post row =>
      cases row with
      | some id => simp [coalesces] at he
      | none => cases post <;> simp [coalesces] at he
    | _ => simp [coalesces] at he

/-! ## After a `clearSession` -/

section Cleared

variable {α : Type} {n m : Nat} {s s' : ChatSession}

/-- The id was answered to the POST numbered `n` or a later one. -/
def RowSince (n : Nat) (s : ChatSession) (id : UUID) : Prop :=
  ∃ post, n ≤ post ∧ s.row post = some id

/-- Answers stay. -/
def Grows (s s' : ChatSession) : Prop := ∀ post id, s.row post = some id → s'.row post = some id

/-- From the POST numbered `n` and the render numbered `m` on, only newer ids are around. -/
structure Since (n m : Nat) (s : ChatSession) : Prop where
  posts : n ≤ s.posts.length
  renders : m ≤ s.renders.length
  inflight : ∀ post, s.inflight = some post → n ≤ post
  state : ∀ id, s.sessionId = some id → RowSince n s id
  captured : ∀ render id, m ≤ render → s.renders[render]? = some (some id) → RowSince n s id
  promised : ∀ c ∈ s.calls, m ≤ c.render → ∀ post, c.reply = .promise post → n ≤ post
  returned : ∀ c ∈ s.calls, m ≤ c.render → ∀ id, c.reply = .sessionId id → RowSince n s id
  called : ∀ c ∈ s.calls, c.render < s.renders.length
  answered : ∀ post, s.result post = none → s.row post = none
  resolved : ∀ post id, s.result post = some (.ok id) → s.row post = some id

theorem RowSince.grow {id : UUID} (h : RowSince n s id) (hgrows : Grows s s') :
    RowSince n s' id := by
  obtain ⟨post, hpost, hrow⟩ := h
  exact ⟨post, hpost, hgrows post id hrow⟩

theorem since_start : Since 0 0 start where
  posts := Nat.zero_le _
  renders := Nat.zero_le _
  inflight := nofun
  state := nofun
  captured := by
    intro render id _ h
    cases render <;> simp [start] at h
  promised := nofun
  returned := nofun
  called := nofun
  answered := fun _ _ => rfl
  resolved := nofun

/-- A change of the POSTs that keeps their answers. -/
theorem Since.update (h : Since n m s) (hgrows : Grows s s')
    (hlength : s'.posts.length = s.posts.length) (hrenders : s'.renders = s.renders)
    (hcalls : s'.calls = s.calls) (hinflight : ∀ post, s'.inflight = some post → n ≤ post)
    (hstate : ∀ id, s'.sessionId = some id → RowSince n s' id)
    (hanswered : ∀ post, s'.result post = none → s'.row post = none)
    (hresolved : ∀ post id, s'.result post = some (.ok id) → s'.row post = some id) :
    Since n m s' where
  posts := hlength ▸ h.posts
  renders := hrenders ▸ h.renders
  inflight := hinflight
  state := hstate
  captured render id hrender hid := (h.captured render id hrender (hrenders ▸ hid)).grow hgrows
  promised c hc := h.promised c (hcalls ▸ hc)
  returned c hc hrender id hid := (h.returned c (hcalls ▸ hc) hrender id hid).grow hgrows
  called c hc := hrenders ▸ h.called c (hcalls ▸ hc)
  answered := hanswered
  resolved := hresolved

/-- A further call. -/
theorem Since.called_append (h : Since n m s) {render : Nat} {reply : EnsureReply}
    (hrender : render < s.renders.length)
    (hpromised : m ≤ render → ∀ post, reply = .promise post → n ≤ post)
    (hreturned : m ≤ render → ∀ id, reply = .sessionId id → RowSince n s id) :
    Since n m (s.called render reply) := by
  refine { h with promised := fun c hc => ?_, returned := fun c hc => ?_, called := fun c hc => ?_ }
  all_goals rcases List.mem_append.1 hc with hc | hc
  · exact h.promised c hc
  · rw [List.mem_singleton.1 hc]
    exact hpromised
  · exact h.returned c hc
  · rw [List.mem_singleton.1 hc]
    exact hreturned
  · exact h.called c hc
  · rw [List.mem_singleton.1 hc]
    exact hrender

/-- A new POST has no answer. -/
theorem bind_append_none {f : SessionPost → Option α} {p : SessionPost} (hp : f p = none)
    (posts : List SessionPost) (i : Nat) : (posts ++ [p])[i]?.bind f = posts[i]?.bind f := by
  rcases Nat.lt_trichotomy i posts.length with hi | rfl | hi
  · rw [List.getElem?_append_left hi]
  · simp [hp]
  · rw [List.getElem?_eq_none (by simp; omega), List.getElem?_eq_none (by omega)]

theorem bind_set {posts : List SessionPost} {post : Nat} (h : post < posts.length)
    (f : SessionPost → Option α) (p : SessionPost) (i : Nat) :
    (posts.set post p)[i]?.bind f = if i = post then f p else posts[i]?.bind f := by
  by_cases hi : i = post
  · subst hi
    simp [h]
  · simp [hi, List.getElem?_set_ne (Ne.symm hi)]

/-- A new POST. -/
theorem Since.posted (h : Since n m s) (hposts : s'.posts = s.posts ++ [⟨none, none, false⟩])
    (hrenders : s'.renders = s.renders) (hcalls : s'.calls = s.calls)
    (hstate : s'.sessionId = s.sessionId) (hinflight : s'.inflight = some s.posts.length) :
    Since n m s' ∧ Grows s s' := by
  have hrow : ∀ post, s'.row post = s.row post := by
    intro post
    rw [row, hposts]
    exact bind_append_none rfl s.posts post
  have hresult : ∀ post, s'.result post = s.result post := by
    intro post
    rw [result, hposts]
    exact bind_append_none rfl s.posts post
  have hgrows : Grows s s' := fun post id hid => (hrow post).trans hid
  refine ⟨?_, hgrows⟩
  exact {
    posts := by rw [hposts, List.length_append]; exact Nat.le_add_right_of_le h.posts
    renders := hrenders ▸ h.renders
    inflight := fun post hpost => by
      rw [hinflight] at hpost
      cases hpost
      exact h.posts
    state := fun id hid => (h.state id (hstate ▸ hid)).grow hgrows
    captured := fun r id hr hid => (h.captured r id hr (hrenders ▸ hid)).grow hgrows
    promised := fun c hc => h.promised c (hcalls ▸ hc)
    returned := fun c hc hr id hid => (h.returned c (hcalls ▸ hc) hr id hid).grow hgrows
    called := fun c hc => hrenders ▸ h.called c (hcalls ▸ hc)
    answered := fun post hpost =>
      (hrow post).trans (h.answered post ((hresult post).symm.trans hpost))
    resolved := fun post id hid =>
      (hrow post).trans (h.resolved post id ((hresult post).symm.trans hid)) }

theorem since_ensureSession (h : Since n m s) (render : Nat) :
    Since n m (s.ensureSession render) ∧ Grows s (s.ensureSession render) := by
  unfold ensureSession
  split
  · exact ⟨h, fun _ _ hrow => hrow⟩
  · rename_i id hrender
    refine ⟨h.called_append (List.getElem?_eq_some_iff.1 hrender).1 nofun ?_, fun _ _ hrow => hrow⟩
    rintro hm _ ⟨⟩
    exact h.captured render id hm hrender
  · rename_i hrender
    have hlt := (List.getElem?_eq_some_iff.1 hrender).1
    split
    · rename_i post hinflight
      refine ⟨h.called_append hlt ?_ nofun, fun _ _ hrow => hrow⟩
      rintro _ _ ⟨⟩
      exact h.inflight post hinflight
    · have hnew : Since n m { s with
          inflight := some s.posts.length
          posts := s.posts ++ [⟨none, none, false⟩] } ∧ Grows s _ := h.posted rfl rfl rfl rfl rfl
      obtain ⟨hposted, hgrows⟩ := hnew
      refine ⟨hposted.called_append hlt ?_ nofun, hgrows⟩
      rintro _ _ ⟨⟩
      exact h.posts

/-! A POST is written over. -/

section Written

variable {post : Nat} {p : SessionPost}

theorem row_set (hlt : post < s.posts.length) (hposts : s'.posts = s.posts.set post p) (i : Nat) :
    s'.row i = if i = post then p.row else s.row i := by
  rw [row, hposts]
  exact bind_set hlt SessionPost.row p i

theorem result_set (hlt : post < s.posts.length) (hposts : s'.posts = s.posts.set post p)
    (i : Nat) : s'.result i = if i = post then p.result else s.result i := by
  rw [result, hposts]
  exact bind_set hlt SessionPost.result p i

/-- An answer is written over a POST that had none. -/
theorem grows_set (hlt : post < s.posts.length) (hposts : s'.posts = s.posts.set post p)
    (hfree : s.row post = none) : Grows s s' := by
  intro i id hid
  rw [row_set hlt hposts, if_neg]
  · exact hid
  · rintro rfl
    cases hfree.symm.trans hid

theorem Since.set (h : Since n m s) (hlt : post < s.posts.length)
    (hposts : s'.posts = s.posts.set post p) (hgrows : Grows s s') (hsome : p.result ≠ none)
    (hok : ∀ id, p.result = some (.ok id) → p.row = some id) (hrenders : s'.renders = s.renders)
    (hcalls : s'.calls = s.calls) (hinflight : ∀ i, s'.inflight = some i → n ≤ i)
    (hstate : ∀ id, s'.sessionId = some id → RowSince n s' id) : Since n m s' := by
  refine h.update hgrows (by rw [hposts, List.length_set]) hrenders hcalls hinflight hstate
    (fun i hi => ?_) fun i id hid => ?_
  · rw [result_set hlt hposts] at hi
    rw [row_set hlt hposts]
    split
    · rename_i heq
      rw [if_pos heq] at hi
      exact absurd hi hsome
    · rename_i hne
      rw [if_neg hne] at hi
      exact h.answered i hi
  · rw [result_set hlt hposts] at hid
    rw [row_set hlt hposts]
    split
    · rename_i heq
      rw [if_pos heq] at hid
      exact hok id hid
    · rename_i hne
      rw [if_neg hne] at hid
      exact h.resolved i id hid

end Written

theorem since_answer (h : Since n m s) (post : Nat) (row : Option UUID) :
    Since n m (s.answer post row) ∧ Grows s (s.answer post row) := by
  unfold answer
  split
  · rename_i row₀ settled hpost
    have hlt := (List.getElem?_eq_some_iff.1 hpost).1
    have hfree : s.row post = none := h.answered post (by simp [result, hpost])
    have hgrows : ∀ (p : SessionPost) (s' : ChatSession), s'.posts = s.posts.set post p →
        Grows s s' := fun p s' hposts => grows_set hlt hposts hfree
    have hold : ∀ (p : SessionPost) (s' : ChatSession), s'.posts = s.posts.set post p →
        s'.sessionId = s.sessionId → ∀ id, s'.sessionId = some id → RowSince n s' id := by
      intro p s' hposts hstate id hid
      exact (h.state id (hstate ▸ hid)).grow (hgrows p s' hposts)
    split
    · exact ⟨h.set hlt rfl (hgrows _ _ rfl) (by simp) (by simp) rfl rfl h.inflight
        (hold _ _ rfl rfl), hgrows _ _ rfl⟩
    · rename_i id
      split
      · exact ⟨h.set hlt rfl (hgrows _ _ rfl) (by simp) (by simp) rfl rfl h.inflight
          (hold _ _ rfl rfl), hgrows _ _ rfl⟩
      · rename_i hinflight
        refine ⟨h.set hlt rfl (hgrows _ _ rfl) (by simp) (by simp) rfl rfl h.inflight ?_,
          hgrows _ _ rfl⟩
        rintro _ ⟨⟩
        refine ⟨post, h.inflight post (not_not.1 hinflight), ?_⟩
        rw [row_set hlt rfl, if_pos rfl]
  · exact ⟨h, fun _ _ hrow => hrow⟩

theorem since_settle (h : Since n m s) (post : Nat) :
    Since n m (s.settle post) ∧ Grows s (s.settle post) := by
  unfold settle
  split
  · rename_i row result hpost
    have hlt := (List.getElem?_eq_some_iff.1 hpost).1
    -- The POST keeps its answer.
    have hrow : s.row post = row := by simp [ChatSession.row, hpost]
    have hresult : s.result post = some result := by simp [ChatSession.result, hpost]
    have hgrows : ∀ s' : ChatSession, s'.posts = s.posts.set post ⟨row, some result, true⟩ →
        Grows s s' := by
      intro s' hposts i id hid
      rw [row_set hlt hposts]
      split
      · rename_i heq
        rw [← hrow, ← heq, hid]
      · exact hid
    refine ⟨h.set hlt rfl (hgrows _ rfl) (by simp) (fun id hid => ?_) rfl rfl (fun i hi => ?_)
      fun id hid => (h.state id hid).grow (hgrows _ rfl), hgrows _ rfl⟩
    · rw [← hrow]
      exact h.resolved post id (hresult.trans hid)
    · simp only at hi
      split at hi
      · cases hi
      · exact h.inflight i hi
  · exact ⟨h, fun _ _ hrow => hrow⟩

theorem since_rerender (h : Since n m s) : Since n m s.rerender ∧ Grows s s.rerender := by
  refine ⟨{ h with renders := ?_, captured := fun render id hrender hid => ?_,
                   called := fun c hc => ?_ }, fun _ _ hrow => hrow⟩
  · simpa [rerender] using Nat.le_succ_of_le h.renders
  · rcases Nat.lt_trichotomy render s.renders.length with hlt | rfl | hgt
    · rw [rerender, List.getElem?_append_left hlt] at hid
      exact h.captured render id hrender hid
    · exact h.state id (by simpa [rerender] using hid)
    · rw [List.getElem?_eq_none (by simp [rerender]; omega)] at hid
      cases hid
  · simpa [rerender] using Nat.lt_succ_of_lt (h.called c hc)

theorem since_clearSession (h : Since n m s) : Since n m s.clearSession :=
  { h with inflight := nofun, state := nofun }

/-- **One event** brings no older id back. -/
theorem since_step (h : Since n m s) (e : SessionEvent) :
    Since n m (s.step e) ∧ Grows s (s.step e) := by
  cases e with
  | clearSession => exact ⟨since_clearSession h, fun _ _ hrow => hrow⟩
  | hook e =>
    cases e with
    | ensureSession render => exact since_ensureSession h render
    | answer post row => exact since_answer h post row
    | settle post => exact since_settle h post
    | rerender => exact since_rerender h

theorem since_run (h : Since n m s) (es : List SessionEvent) :
    Since n m (Runs.run step s es) ∧ Grows s (Runs.run step s es) := by
  refine Runs.inv_run (I := fun t => Since n m t ∧ Grows s t) (fun t e ht => ?_)
    ⟨h, fun _ _ hrow => hrow⟩ es
  obtain ⟨hsince, hgrows⟩ := since_step ht.1 e
  exact ⟨hsince, fun post id hid => hgrows post id (ht.2 post id hid)⟩

/-- Right after a `clearSession` nothing from before is around. -/
theorem since_cleared (h : Since 0 0 s) : Since s.posts.length s.renders.length s.clearSession where
  posts := le_rfl
  renders := le_rfl
  inflight := nofun
  state := nofun
  captured render id hrender hid := by
    rw [clearSession, List.getElem?_eq_none hrender] at hid
    cases hid
  promised c hc hrender := absurd (h.called c hc) (Nat.not_lt.2 hrender)
  returned c hc hrender := absurd (h.called c hc) (Nat.not_lt.2 hrender)
  called := h.called
  answered := h.answered
  resolved := h.resolved

/-- **After a `clearSession`** no callback of a later render resolves to an id from before. -/
theorem clearedFor_run (h : Since 0 0 s) (es : List SessionEvent)
    (hunique : UniqueRows (Runs.run step s (.clearSession :: es))) :
    ClearedFor s (Runs.run step s (.clearSession :: es)) := by
  obtain ⟨hsince, hgrows⟩ := since_run (since_cleared h) es
  rw [Runs.run_cons] at hunique ⊢
  change Since _ _ (Runs.run step (s.step .clearSession) es) at hsince
  change Grows s (Runs.run step (s.step .clearSession) es) at hgrows
  generalize Runs.run step (s.step .clearSession) es = after at *
  intro c hc hrender id hid
  have hnew : RowSince s.posts.length after id := by
    unfold outcome at hid
    split at hid
    · rename_i hreply
      cases hid
      exact hsince.returned c hc hrender id hreply
    · rename_i post hreply
      exact ⟨post, hsince.promised c hc hrender post hreply, hsince.resolved post id hid⟩
  obtain ⟨post, hpost, hrow⟩ := hnew
  have hold : ∀ i < s.posts.length, after.row i ≠ some id := by
    intro i hi hid'
    have heq := hunique i post id hid' hrow
    omega
  refine ⟨hold, fun hstate => ?_⟩
  obtain ⟨i, _, hi⟩ := h.state id hstate
  have hlt : i < s.posts.length := by
    by_contra hge
    simp [row, List.getElem?_eq_none (Nat.not_lt.1 hge)] at hi
  exact hold i hlt (hgrows i id hi)

end Cleared

/-! ## All runs -/

/-- **One session.** Without `clearSession`, there is at most one `POST /sessions` and all calls
resolve to its id, in every state of a run, exactly when every step of the run coalesces.  After a
`clearSession`, no callback of a later render resolves to an id from before. -/
theorem one_session_iff (es : List HookEvent) :
    ((∀ s ∈ Runs.states hookStep start es, OneSession s) ↔
      ∀ p ∈ Runs.steps hookStep start es, p.1.coalesces p.2 = true) ∧
    ∀ before after : List SessionEvent,
      UniqueRows (Runs.run step (Runs.run step start before) (.clearSession :: after)) →
      ClearedFor (Runs.run step start before)
        (Runs.run step (Runs.run step start before) (.clearSession :: after)) := by
  constructor
  · have hexact : ∀ s e, Phase s → (OneSession (s.hookStep e) ↔ s.coalesces e = true) := by
      intro s e hs
      refine ⟨fun hone => ?_, fun he => oneSession_of_phase (phase_step hs he)⟩
      by_contra he
      exact not_oneSession_step hs (by simpa using he) hone
    exact Runs.states_iff_steps_of (D := fun _ _ => True) (fun s e hs _ he => phase_step hs he)
      (fun s e hs _ _ => hexact s e hs) phase_start (oneSession_of_phase phase_start)
      fun _ _ => trivial
  · exact fun before after hunique => clearedFor_run (since_run since_start before).1 after hunique

/-- A second call after the POST has settled and before the next render. -/
def beforeRerender : List HookEvent :=
  [.ensureSession 0, .answer 0 (some 1), .settle 0, .ensureSession 0]

/-- A second call through the callback of the first render, after the next. -/
def staleCallback : List HookEvent :=
  [.ensureSession 0, .answer 0 (some 1), .settle 0, .rerender, .ensureSession 0]

/-- Both post again. -/
theorem one_session_late :
    ¬ (∀ s ∈ Runs.states hookStep start beforeRerender, OneSession s) ∧
      ¬ (∀ s ∈ Runs.states hookStep start staleCallback, OneSession s) := by
  refine ⟨fun h => ?_, fun h => ?_⟩
  · have hone := (h _ (Runs.run_mem_states ..)).posts
    revert hone
    decide
  · have hone := (h _ (Runs.run_mem_states ..)).posts
    revert hone
    decide

end ChatSession

end MeJournal
