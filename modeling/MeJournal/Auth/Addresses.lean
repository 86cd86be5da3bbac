import MeJournal.Auth.StepUp

/-!
# The throttle by client address

`client_ip` of `app/core/security.py`, and the two throttled endpoints under requests from many
peers.  Behind a trusted proxy the address is the first one that the `X-Forwarded-For` header
names, whoever wrote it.

* `serve_other` — a request leaves the rows of all other addresses and actions.
* `alone_run` — the requests of one address and action are answered as if there were no others.
* `addresses_throttled_apart` — each address has a limiter of its own; a header cannot change the
  address of a peer that is not trusted, and lets a trusted one pass every limiter.
-/

namespace MeJournal

namespace Addresses

/-- What `client_ip` reads of a request. -/
structure Peer where
  /-- `request.client.host`. -/
  client : Option Text
  forwardedFor : Option Text

def unknownAddress : Text := "unknown".toList

/-- `client_ip`. -/
def clientIp (trustProxyHeaders : Bool) (peer : Peer) : Text :=
  let forwarded := if trustProxyHeaders then peer.forwardedFor.filter (· ≠ []) else none
  match forwarded with
  | some fwd => pyStrip (fwd.takeWhile (· ≠ ','))
  | none => peer.client.getD unknownAddress

/-- The endpoints that the throttle guards. -/
inductive Guarded where
  | login
  | verifyPassphrase
  deriving DecidableEq

def Guarded.action : Guarded → Text
  | .login => loginAction
  | .verifyPassphrase => verifyAction

/-- A request that gets as far as the throttle, with what the check of its passphrase would say. -/
structure Knock where
  peer : Peer
  endpoint : Guarded
  attempt : Limiter.Try Time

section Serve

variable (settings : ThrottleSettings) (trustProxyHeaders : Bool)

/-- The row that the request is about. -/
def Knock.target (k : Knock) : Guarded × Text := (k.endpoint, clientIp trustProxyHeaders k.peer)

def Knock.key (k : Knock) : Text :=
  throttleKey k.endpoint.action (clientIp trustProxyHeaders k.peer)

def serve (t : ThrottleTable) (k : Knock) : AttemptOutcome × ThrottleTable :=
  attempt settings k.endpoint.action (clientIp trustProxyHeaders k.peer) t k.attempt

/-- The requests of a run, each with its outcome. -/
def served (t : ThrottleTable) (ks : List Knock) : List (Knock × AttemptOutcome) :=
  (Runs.steps (fun t k => (serve settings trustProxyHeaders t k).2) t ks).map fun p =>
    (p.2, (serve settings trustProxyHeaders p.1 p.2).1)

/-- The outcomes of the attempts at one endpoint from one address, without any others. -/
def alone (target : Guarded × Text) (t : ThrottleTable) (tries : List (Limiter.Try Time)) :
    List AttemptOutcome :=
  (attemptsOf settings target.1.action target.2 t tries).map fun p =>
    (attempt settings target.1.action target.2 p.1 p.2).1

/-- The attempts of one client at one endpoint, each with a header of its own. -/
def naming (client : Option Text) (endpoint : Guarded) (header : Nat → Text)
    (tries : List (Limiter.Try Time)) : List Knock :=
  tries.mapIdx fun i a => ⟨⟨client, some (header i)⟩, endpoint, a⟩

end Serve

section Apart

variable {settings : ThrottleSettings} {trustProxyHeaders : Bool} {t : ThrottleTable}

/-- The action ends at the first colon. -/
theorem throttleKey_inj {e f : Guarded} {ip ip' : Text}
    (h : throttleKey e.action ip = throttleKey f.action ip') : (e, ip) = (f, ip') := by
  have hsplit : ∀ (g : Guarded) (ip : Text),
      (throttleKey g.action ip).takeWhile (· ≠ ':') = g.action ∧
        (throttleKey g.action ip).dropWhile (· ≠ ':') = ':' :: ip := by
    intro g ip
    have hcolon : ∀ c ∈ g.action, decide (c ≠ ':') = true :=
      List.all_eq_true.1 (by cases g <;> decide)
    rw [throttleKey, List.takeWhile_append_of_pos hcolon, List.dropWhile_append_of_pos hcolon]
    simp
  have haction := (hsplit e ip).1
  have hip := (hsplit e ip).2
  rw [h, (hsplit f ip').1] at haction
  rw [h, (hsplit f ip').2] at hip
  have hsame : e = f := by
    cases e <;> cases f <;> first | rfl | exact absurd haction (by decide)
  rw [hsame, (List.cons.inj hip).2]

/-- **A request leaves the other rows.** -/
theorem serve_other {target : Guarded × Text} {k : Knock}
    (h : k.target trustProxyHeaders ≠ target) :
    rowOf (serve settings trustProxyHeaders t k).2 (throttleKey target.1.action target.2) =
      rowOf t (throttleKey target.1.action target.2) := by
  have hfind := (attempt_limiter settings k.endpoint.action (clientIp trustProxyHeaders k.peer) t
    k.attempt).2.2 (throttleKey target.1.action target.2) fun heq => h (throttleKey_inj heq).symm
  rw [rowOf, serve, hfind, rowOf]

/-- **The requests of one row**, from any tables that agree on it. -/
theorem alone_run {target : Guarded × Text} {t u : ThrottleTable}
    (h : rowOf t (throttleKey target.1.action target.2) =
      rowOf u (throttleKey target.1.action target.2))
    (ks : List Knock) :
    ((served settings trustProxyHeaders t ks).filter fun p =>
        p.1.target trustProxyHeaders = target).map Prod.snd =
      alone settings target u
        ((ks.filter fun k => k.target trustProxyHeaders = target).map Knock.attempt) := by
  induction ks generalizing t u with
  | nil => rfl
  | cons k ks ih =>
    rw [served, Runs.steps_cons, List.map_cons, ← served]
    by_cases hk : k.target trustProxyHeaders = target
    · subst hk
      have hone := attempt_limiter settings k.endpoint.action (clientIp trustProxyHeaders k.peer) t
        k.attempt
      have halone := attempt_limiter settings k.endpoint.action
        (clientIp trustProxyHeaders k.peer) u k.attempt
      rw [List.filter_cons_of_pos (by simp), List.filter_cons_of_pos (by simp), List.map_cons,
        List.map_cons, alone, attemptsOf, Runs.steps_cons, List.map_cons, ← attemptsOf]
      refine congrArg₂ List.cons ?_ (ih ?_)
      · exact hone.1.trans ((congrArg (fun r => AttemptOutcome.ofLimiter
          (settings.policy.outcome r k.attempt)) h).trans halone.1.symm)
      · exact hone.2.1.trans ((congrArg (fun r => settings.policy.step r k.attempt) h).trans
          halone.2.1.symm)
    · rw [List.filter_cons_of_neg (by simpa using hk), List.filter_cons_of_neg (by simpa using hk)]
      exact ih ((serve_other hk).trans h)

/-- Without trust the header says nothing. -/
theorem served_untrusted (t : ThrottleTable) (ks : List Knock) (header : Knock → Option Text) :
    (served settings false t (ks.map fun k =>
        { k with peer := { k.peer with forwardedFor := header k } })).map Prod.snd =
      (served settings false t ks).map Prod.snd := by
  induction ks generalizing t with
  | nil => rfl
  | cons k ks ih => exact congrArg (_ :: ·) (ih _)

/-- Addresses that a client can make up. -/
def madeUp (i : Nat) : Text := List.replicate (i + 1) 'a'

theorem clientIp_madeUp (client : Option Text) (i : Nat) :
    clientIp true ⟨client, some (madeUp i)⟩ = madeUp i := by
  have hall : ∀ c ∈ madeUp i, c = 'a' := fun c hc => List.eq_of_mem_replicate hc
  have hword : ∀ c ∈ madeUp i, ¬ isPySpace c = true := by
    intro c hc
    rw [hall c hc]
    decide
  have hstrip : pyStrip (madeUp i) = madeUp i := by
    rw [pyStrip, List.dropWhile_eq_self_iff.2 fun _ => hword _ (List.getElem_mem _),
      List.rdropWhile_eq_self_iff.2 fun _ => hword _ (List.getLast_mem _)]
  have hwhole : (madeUp i).takeWhile (· ≠ ',') = madeUp i := by
    rw [List.takeWhile_eq_self_iff]
    intro c hc
    rw [hall c hc]
    decide
  have hnonempty : madeUp i ≠ [] := List.cons_ne_nil _ _
  rw [clientIp, if_pos rfl, Option.filter_some, if_pos (by simpa using hnonempty)]
  simp only
  rw [hwhole, hstrip]

theorem madeUp_inj {i j : Nat} (h : madeUp i = madeUp j) : i = j := by
  simpa [madeUp] using congrArg List.length h

/-- Headers that name made-up addresses name another one each time. -/
theorem naming_nodup (client : Option Text) (endpoint : Guarded) (tries : List (Limiter.Try Time))
    {index : Nat → Nat} (hindex : Function.Injective fun i => madeUp (index i)) :
    ((naming client endpoint (fun i => madeUp (index i)) tries).map
      (Knock.target true)).Nodup := by
  rw [List.Nodup, List.pairwise_iff_getElem]
  intro i j hi hj hij heq
  simp only [naming, List.getElem_map, List.getElem_mapIdx, Knock.target, clientIp_madeUp] at heq
  exact hij.ne (hindex (Prod.ext_iff.1 heq).2)

theorem naming_unused {t : ThrottleTable} (client : Option Text) (endpoint : Guarded)
    (tries : List (Limiter.Try Time)) {index : Nat → Nat}
    (h : ∀ i, rowOf t (throttleKey endpoint.action (madeUp (index i))) = none) :
    ∀ k ∈ naming client endpoint (fun i => madeUp (index i)) tries,
      rowOf t (k.key true) = none := by
  intro k hk
  obtain ⟨i, hi, rfl⟩ := List.mem_mapIdx.1 hk
  rw [Knock.key, clientIp_madeUp]
  exact h i

/-- Only finitely many addresses have a row. -/
theorem exists_unused (t : ThrottleTable) (action : Text) :
    ∃ m, ∀ i ≥ m, rowOf t (throttleKey action (madeUp i)) = none := by
  refine ⟨(t.rows.map fun r => r.key.length).max?.getD 0, fun i hi => ?_⟩
  rw [rowOf, Option.map_eq_none_iff, Table.find_eq_none]
  intro r hr hkey
  have hle : r.key.length ≤ (t.rows.map fun r => r.key.length).max?.getD 0 :=
    List.le_max?_getD_of_mem (List.mem_map_of_mem hr)
  rw [hkey] at hle
  simp only [throttleKey, madeUp, List.length_append, List.length_cons, List.length_replicate]
    at hle
  omega

/-- **A fresh row for each attempt**: none is refused. -/
theorem fresh_run {t : ThrottleTable} {ks : List Knock}
    (hapart : (ks.map (Knock.target trustProxyHeaders)).Nodup)
    (h : ∀ k ∈ ks, rowOf t (k.key trustProxyHeaders) = none) :
    ∀ p ∈ served settings trustProxyHeaders t ks, ∀ lockedUntil, p.2 ≠ .refused lockedUntil := by
  induction ks generalizing t with
  | nil => simp [served]
  | cons k ks ih =>
    obtain ⟨hfirst, hrest⟩ := List.nodup_cons.1 hapart
    have hone := (attempt_limiter settings k.endpoint.action (clientIp trustProxyHeaders k.peer) t
      k.attempt).1
    have hnone : rowOf t (throttleKey k.endpoint.action (clientIp trustProxyHeaders k.peer)) =
        none := h k List.mem_cons_self
    rw [served, Runs.steps_cons, List.map_cons, ← served]
    refine List.forall_mem_cons.2 ⟨?_, ih hrest fun k' hk' => ?_⟩
    · rw [serve, hone, hnone, Limiter.Policy.outcome]
      cases k.attempt.ok <;> exact fun _ h => by cases h
    · have hne : k.target trustProxyHeaders ≠ k'.target trustProxyHeaders := fun heq =>
        hfirst (heq ▸ List.mem_map_of_mem hk')
      exact (serve_other hne).trans (h k' (List.mem_cons_of_mem _ hk'))

end Apart

/-- **Each address has a limiter of its own, and no more.**  In every sequence of attempts from any
peers, those at one endpoint from one address are answered as if there were no others.  Without
trust in proxy headers the peer cannot choose its address; with it, a peer that names a new address
in each attempt is never refused, whichever the addresses are, and whatever rows there are, it can
name new ones for as many attempts as it makes. -/
theorem addresses_throttled_apart (settings : ThrottleSettings) (t : ThrottleTable) :
    (∀ (trustProxyHeaders : Bool) (ks : List Knock) (target : Guarded × Text),
      ((served settings trustProxyHeaders t ks).filter fun p =>
          p.1.target trustProxyHeaders = target).map Prod.snd =
        alone settings target t
          ((ks.filter fun k => k.target trustProxyHeaders = target).map Knock.attempt)) ∧
    (∀ (ks : List Knock) (header : Knock → Option Text),
      (served settings false t (ks.map fun k =>
          { k with peer := { k.peer with forwardedFor := header k } })).map Prod.snd =
        (served settings false t ks).map Prod.snd) ∧
    (∀ ks : List Knock, (ks.map (Knock.target true)).Nodup →
      (∀ k ∈ ks, rowOf t (k.key true) = none) →
        ∀ p ∈ served settings true t ks, ∀ lockedUntil, p.2 ≠ .refused lockedUntil) ∧
    ∀ (client : Option Text) (endpoint : Guarded) (tries : List (Limiter.Try Time)),
      ∃ header : Nat → Text,
        ((naming client endpoint header tries).map (Knock.target true)).Nodup ∧
          ∀ k ∈ naming client endpoint header tries, rowOf t (k.key true) = none := by
  refine ⟨fun _ ks _ => alone_run rfl ks, served_untrusted t,
    fun ks hapart h => fresh_run hapart h, fun client endpoint tries => ?_⟩
  obtain ⟨m, hm⟩ := exists_unused t endpoint.action
  exact ⟨fun i => madeUp (m + i),
    naming_nodup client endpoint tries fun _ _ h => Nat.add_left_cancel (madeUp_inj h),
    naming_unused client endpoint tries fun i => hm (m + i) (Nat.le_add_right m i)⟩

/-- Wrong passphrases from one address, with another's between them. -/
example :
    ((served ⟨2, 900, 900⟩ false Table.empty
      [⟨⟨some ['a'], none⟩, .login, ⟨0, false⟩⟩, ⟨⟨some ['b'], none⟩, .login, ⟨1, false⟩⟩,
        ⟨⟨some ['a'], some ['b']⟩, .login, ⟨2, false⟩⟩,
        ⟨⟨some ['a'], none⟩, .login, ⟨3, true⟩⟩]).map Prod.snd) =
      [.wrong none, .wrong none, .wrong (some 900000002), .refused 900000002] := by
  decide

end Addresses

end MeJournal
