import MeJournal.Auth.StepUp
import MeJournal.Isoformat
import MeJournal.Memory.Row

/-!
# Access tokens

`mint_access_token`, `decode_access_token`, `bearer_token` and `current_user` of
`app/core/security.py`, over the `jwt` package, and the token that `login` answers with.  The
server keeps no list of the tokens it has handed out, and takes none back.

* `Jwt` — signed tokens, with what the package documents of `iat` and `exp`.
* `currentUser_granted` — whom a token that a login handed out authenticates, and how long.
* `accepted_iff_granted` — after any requests, a header authenticates a user exactly when a login
  among them handed its token out for that user, and the time of that token is not over; or the
  token is signed by someone else who has the secret.
-/

namespace MeJournal

namespace Tokens

/-! ## The package -/

/-- The claims that the server puts into a token. -/
structure Claims where
  sub : Text
  /-- In seconds. -/
  iat : Int
  exp : Int

/-- What `jwt.decode` returns: `sub`, if the payload has it as a string. -/
structure TokenPayload where
  sub : Option Text
  deriving DecidableEq

/-- `jwt`, with HS256. -/
structure Jwt where
  encode : Claims → (secret : Text) → Text
  /-- An error is the text of a `PyJWTError`. -/
  decode : Time → Text → (secret : Text) → Except Text TokenPayload
  /-- A token of the same secret is decoded from its `iat` on, until its `exp`. -/
  decode_encode : ∀ claims secret now, seconds claims.iat ≤ now → now < seconds claims.exp →
    decode now (encode claims secret) secret = .ok ⟨some claims.sub⟩
  /-- `ImmatureSignatureError` and `ExpiredSignatureError`. -/
  decode_outside : ∀ claims secret now, ¬(seconds claims.iat ≤ now ∧ now < seconds claims.exp) →
    ∃ e, decode now (encode claims secret) secret = .error e
  encode_ne_nil : ∀ claims secret, encode claims secret ≠ []

/-! ## The functions -/

/-- `User`; `Hash` is a stored passphrase hash. -/
structure User (Hash : Type) where
  id : UUID
  passphraseHash : Hash

variable {Hash : Type}

/-- `timedelta(days=n)`. -/
def days (n : Int) : Time := seconds (86400 * n)

/-- The claims of a token for the user, minted at `now`. -/
def mintedClaims (now : Time) (userId : UUID) (expiresIn : Time) : Claims where
  sub := uuidText userId
  iat := unixSeconds now
  exp := unixSeconds (now + expiresIn)

/-- `mint_access_token`. -/
def mintAccessToken (jwt : Jwt) (now : Time) (userId : UUID) (secret : Text) (expiresIn : Time) :
    Text × Time :=
  (jwt.encode (mintedClaims now userId expiresIn) secret, now + expiresIn)

/-- `decode_access_token`; an error is an `InvalidTokenError`. -/
def decodeAccessToken (jwt : Jwt) (now : Time) (token secret : Text) : Except Text UUID :=
  match jwt.decode now token secret with
  | .error e => .error e
  | .ok payload =>
    match payload.sub with
    | none => .error "token missing sub claim".toList
    | some sub =>
      match uuidOf sub with
      | none => .error "token sub is not a uuid".toList
      | some userId => .ok userId

/-- `str.partition` of one character: what is before its first place, and what is after. -/
def partition (sep : Char) (t : Text) : Text × Text :=
  (t.takeWhile (· ≠ sep), (t.dropWhile (· ≠ sep)).tail)

theorem partition_append {sep : Char} {before : Text} (h : sep ∉ before) (after : Text) :
    partition sep (before ++ sep :: after) = (before, after) := by
  have hbefore : ∀ c ∈ before, decide (c ≠ sep) = true := by
    intro c hc
    exact decide_eq_true fun heq => h (heq ▸ hc)
  rw [partition, List.takeWhile_append_of_pos hbefore, List.dropWhile_append_of_pos hbefore]
  simp

/-- `bearer_token`; `none` is the 401.  A header is Latin-1 text, of which `str.lower` makes an
ASCII letter only from one. -/
def bearerToken (authorization : Option Text) : Option Text :=
  match authorization with
  | none => none
  | some header =>
    if header = [] then none
    else
      let (scheme, token) := partition ' ' header
      if scheme.map Char.toLower ≠ "bearer".toList ∨ token = [] then none else some token

/-- `current_user`; `none` is the 401. -/
def currentUser (jwt : Jwt) (users : Table (User.id : User Hash → UUID)) (secret : Text)
    (now : Time) (authorization : Option Text) : Option (User Hash) :=
  (bearerToken authorization).bind fun token =>
    match decodeAccessToken jwt now token secret with
    | .error _ => none
    | .ok userId => users.find userId

/-- What the phone sends: `Bearer ${token}`. -/
def phoneHeader (token : Text) : Text := "Bearer".toList ++ ' ' :: token

theorem bearerToken_phoneHeader {token : Text} (h : token ≠ []) :
    bearerToken (some (phoneHeader token)) = some token := by
  have hparts : partition ' ' (phoneHeader token) = ("Bearer".toList, token) :=
    partition_append (by decide) token
  have hlower : "Bearer".toList.map Char.toLower = "bearer".toList := by decide
  have hne : phoneHeader token ≠ [] := List.append_ne_nil_of_right_ne_nil _ nofun
  rw [bearerToken, if_neg hne, hparts]
  simp only [hlower]
  rw [if_neg]
  simp [h]

/-! ## What a login hands out -/

/-- A server with its settings. -/
structure AuthServer (Hash : Type) where
  jwt : Jwt
  /-- `jwt_secret`. -/
  secret : Text
  /-- `jwt_expires_days`. -/
  expiresDays : Int
  throttle : ThrottleSettings
  users : Table (User.id : User Hash → UUID)
  verifyPassphrase : Text → Hash → Bool
  clientIp : Text

/-- A request, with the clock that `mint_access_token` reads if it gets there. -/
structure AuthRequest where
  request : PassphraseRequest
  mintedAt : Time
  deriving DecidableEq

/-- A token that `login` answered with. -/
structure Grant where
  userId : UUID
  mintedAt : Time
  token : Text
  expiresAt : Time
  deriving DecidableEq

/-- Its time, of which the token has the whole seconds. -/
def Grant.Current (g : Grant) (now : Time) : Prop :=
  seconds (unixSeconds g.mintedAt) ≤ now ∧ now < seconds (unixSeconds g.expiresAt)

namespace AuthServer

/-- What the passphrase endpoints see of it. -/
def platform (server : AuthServer Hash) : AuthPlatform Hash where
  owner := server.users.rows.head?.map User.passphraseHash
  currentUser now authorization :=
    (currentUser server.jwt server.users server.secret now authorization).map User.passphraseHash
  verifyPassphrase := server.verifyPassphrase

/-- The `LoginResponse` that the request is answered with. -/
def granted (server : AuthServer Hash) (t : ThrottleTable) (r : AuthRequest) : Option Grant :=
  match r.request.body, (servePassphrase server.throttle server.platform server.clientIp t
    r.request).1 with
  | .login _, .attempted .right =>
    server.users.rows.head?.map fun user =>
      let minted := mintAccessToken server.jwt r.mintedAt user.id server.secret
        (days server.expiresDays)
      ⟨user.id, r.mintedAt, minted.1, minted.2⟩
  | _, _ => none

/-- The throttle table after requests. -/
def after (server : AuthServer Hash) (t : ThrottleTable) (reqs : List AuthRequest) :
    ThrottleTable :=
  afterRequests server.throttle server.platform server.clientIp t (reqs.map AuthRequest.request)

/-- One of the requests was answered with the token. -/
def Granted (server : AuthServer Hash) (t : ThrottleTable) (reqs : List AuthRequest)
    (g : Grant) : Prop :=
  ∃ before r later, reqs = before ++ r :: later ∧
    server.granted (server.after t before) r = some g

/-- The header has a token that is signed with the secret, and was not handed out. -/
def Forged (server : AuthServer Hash) (t : ThrottleTable) (reqs : List AuthRequest) (now : Time)
    (authorization : Option Text) (user : User Hash) : Prop :=
  ∃ token, bearerToken authorization = some token ∧
    (∀ g, server.Granted t reqs g → g.token ≠ token) ∧ user ∈ server.users.rows ∧
    decodeAccessToken server.jwt now token server.secret = .ok user.id

variable (server : AuthServer Hash)

theorem granted_eq_some {t : ThrottleTable} {r : AuthRequest} {g : Grant}
    (h : server.granted t r = some g) :
    r.request.endpoint = .login ∧
      (servePassphrase server.throttle server.platform server.clientIp t r.request).1.judged =
        some true ∧
      g.token = server.jwt.encode (mintedClaims r.mintedAt g.userId (days server.expiresDays))
        server.secret ∧
      g.mintedAt = r.mintedAt ∧ g.expiresAt = r.mintedAt + days server.expiresDays := by
  unfold granted at h
  split at h
  · rename_i hbody hright
    obtain ⟨user, -, rfl⟩ := Option.map_eq_some_iff.1 h
    refine ⟨by rw [PassphraseRequest.endpoint, hbody], by rw [hright]; rfl, rfl, rfl, rfl⟩
  · cases h

theorem decode_granted {t : ThrottleTable} {r : AuthRequest} {g : Grant}
    (h : server.granted t r = some g) (now : Time) :
    (g.Current now →
      decodeAccessToken server.jwt now g.token server.secret = .ok g.userId) ∧
    (¬ g.Current now →
      ∃ e, decodeAccessToken server.jwt now g.token server.secret = .error e) := by
  obtain ⟨-, -, htoken, hminted, hexpires⟩ := server.granted_eq_some h
  rw [htoken, Grant.Current, hminted, hexpires]
  constructor
  · rintro ⟨hiat, hexp⟩
    rw [decodeAccessToken, server.jwt.decode_encode _ _ _ hiat hexp]
    simp only [mintedClaims, uuidOf_uuidText]
  · intro hover
    obtain ⟨e, he⟩ := server.jwt.decode_outside (mintedClaims r.mintedAt g.userId
      (days server.expiresDays)) server.secret now hover
    exact ⟨e, by rw [decodeAccessToken, he]⟩

theorem currentUser_eq_some {now : Time} {authorization : Option Text} {user : User Hash} :
    currentUser server.jwt server.users server.secret now authorization = some user ↔
      ∃ token, bearerToken authorization = some token ∧ user ∈ server.users.rows ∧
        decodeAccessToken server.jwt now token server.secret = .ok user.id := by
  rw [currentUser, Option.bind_eq_some_iff]
  refine exists_congr fun token => and_congr_right fun _ => ?_
  cases decodeAccessToken server.jwt now token server.secret with
  | error e => simp
  | ok userId =>
    simp only [Table.find_eq_some, Except.ok.injEq]
    exact and_congr_right fun _ => eq_comm

/-- **Whom a handed out token authenticates**, and how long. -/
theorem currentUser_granted {t : ThrottleTable} {r : AuthRequest} {g : Grant}
    (h : server.granted t r = some g) {now : Time} {authorization : Option Text}
    (htoken : bearerToken authorization = some g.token) (user : User Hash) :
    currentUser server.jwt server.users server.secret now authorization = some user ↔
      g.Current now ∧ user ∈ server.users.rows ∧ user.id = g.userId := by
  obtain ⟨hcurrent, hover⟩ := server.decode_granted h now
  rw [currentUser_eq_some]
  constructor
  · rintro ⟨token, htoken', hmem, hdecode⟩
    cases htoken.symm.trans htoken'
    by_cases hg : g.Current now
    · exact ⟨hg, hmem, Except.ok.inj (hdecode.symm.trans (hcurrent hg))⟩
    · obtain ⟨e, he⟩ := hover hg
      cases hdecode.symm.trans he
  · rintro ⟨hg, hmem, hid⟩
    exact ⟨g.token, htoken, hmem, by rw [hcurrent hg, hid]⟩

end AuthServer

/-- Whole seconds are less than a second short. -/
theorem seconds_unixSeconds {ts : Int} (h : 0 ≤ ts) :
    seconds (unixSeconds ts) ≤ ts ∧ ts < seconds (unixSeconds ts) + seconds 1 := by
  rw [unixSeconds, Int.tdiv_eq_ediv_of_nonneg h]
  constructor
  · exact Int.ediv_mul_le ts (by decide)
  · have hlt := Int.lt_ediv_add_one_mul_self ts (show (0 : Int) < 1000000 by decide)
    rw [Int.add_mul] at hlt
    exact hlt

theorem Grant.current_of_within {g : Grant} {now : Time} (hpos : 0 ≤ g.mintedAt)
    (hstart : g.mintedAt ≤ now) (hend : now + seconds 1 ≤ g.expiresAt) : g.Current now := by
  have hexpires : 0 ≤ g.expiresAt := by
    have hsecond : (0 : Int) ≤ seconds 1 := by decide
    exact (hpos.trans hstart).trans ((le_add_of_nonneg_right hsecond).trans hend)
  refine ⟨(seconds_unixSeconds hpos).1.trans hstart, ?_⟩
  exact lt_of_add_lt_add_right (hend.trans_lt (seconds_unixSeconds hexpires).2)

/-- **Access comes from a login.**  After any requests, a header authenticates a user exactly when
one of them was a login that handed the header's token out for that user, and the token's time is
not over; or the token is forged.  Such a login compared the passphrase and found it right.  The
token is good until less than a second before the `expires_at` of the answer. -/
theorem accepted_iff_granted (server : AuthServer Hash) (t : ThrottleTable)
    (reqs : List AuthRequest) :
    (∀ now authorization user,
      currentUser server.jwt server.users server.secret now authorization = some user ↔
        (∃ g, server.Granted t reqs g ∧ bearerToken authorization = some g.token ∧
          g.Current now ∧ user ∈ server.users.rows ∧ user.id = g.userId) ∨
        server.Forged t reqs now authorization user) ∧
    ∀ g, server.Granted t reqs g →
      (∃ before r later, reqs = before ++ r :: later ∧ r.request.endpoint = .login ∧
        judgedAfter server.throttle server.platform server.clientIp t
          (before.map AuthRequest.request) r.request = some true ∧
        g.mintedAt = r.mintedAt ∧ g.expiresAt = r.mintedAt + days server.expiresDays) ∧
      bearerToken (some (phoneHeader g.token)) = some g.token ∧
      ∀ now, g.mintedAt ≤ now → 0 ≤ g.mintedAt → now + seconds 1 ≤ g.expiresAt →
        g.Current now := by
  refine ⟨fun now authorization user => ⟨fun haccepted => ?_, ?_⟩, ?_⟩
  · obtain ⟨token, htoken, hmem, hdecode⟩ := server.currentUser_eq_some.1 haccepted
    by_cases hgranted : ∃ g, server.Granted t reqs g ∧ g.token = token
    · obtain ⟨g, ⟨before, r, later, hreqs, hr⟩, rfl⟩ := hgranted
      exact Or.inl ⟨g, ⟨before, r, later, hreqs, hr⟩, htoken,
        (server.currentUser_granted hr htoken user).1 haccepted⟩
    · exact Or.inr ⟨token, htoken, fun g hg heq => hgranted ⟨g, hg, heq⟩, hmem, hdecode⟩
  · rintro (⟨g, ⟨before, r, later, -, hr⟩, htoken, hcurrent⟩ | ⟨token, htoken, -, hmem, hdecode⟩)
    · exact (server.currentUser_granted hr htoken user).2 hcurrent
    · exact server.currentUser_eq_some.2 ⟨token, htoken, hmem, hdecode⟩
  · rintro g ⟨before, r, later, hreqs, hr⟩
    obtain ⟨hlogin, hjudged, htoken, hminted, hexpires⟩ := server.granted_eq_some hr
    exact ⟨⟨before, r, later, hreqs, hlogin, hjudged, hminted, hexpires⟩,
      bearerToken_phoneHeader (by rw [htoken]; exact server.jwt.encode_ne_nil _ _),
      fun now hstart hpos hend => g.current_of_within hpos hstart hend⟩

/-! ## A package to evaluate on -/

theorem digitsValue_decimal (n : Nat) : Json.digitsValue (Json.decimal n) = n := by
  rcases Json.decimal_shape n with ⟨htext, rfl⟩ | ⟨d, ds, htext, -, -, hvalue⟩
  · rw [htext]
    rfl
  · rw [htext, hvalue]

theorem isDigit_decimal (n : Nat) : ∀ c ∈ Json.decimal n, c.isDigit = true := by
  rcases Json.decimal_shape n with ⟨htext, -⟩ | ⟨d, ds, htext, -, hdigit, -⟩
  · rw [htext]
    exact List.forall_mem_singleton.2 rfl
  · rw [htext]
    exact hdigit

/-- A number as a text without a dot: what it is above zero, and below. -/
def intText (n : Int) : Text := Json.decimal n.toNat ++ '-' :: Json.decimal (-n).toNat

def ofIntText (t : Text) : Int :=
  let (above, below) := partition '-' t
  (Json.digitsValue above : Int) - Json.digitsValue below

theorem ofIntText_intText (n : Int) : ofIntText (intText n) = n := by
  have hdash : '-' ∉ Json.decimal n.toNat := by
    intro hmem
    exact absurd (isDigit_decimal _ _ hmem) (by decide)
  rw [ofIntText, intText, partition_append hdash]
  dsimp only
  rw [digitsValue_decimal, digitsValue_decimal]
  omega

theorem dot_notMem_intText (n : Int) : '.' ∉ intText n := by
  have hdot : ∀ m : Nat, '.' ∉ Json.decimal m := by
    intro m hmem
    exact absurd (isDigit_decimal _ _ hmem) (by decide)
  rw [intText, List.mem_append, List.mem_cons]
  rintro (hmem | heq | hmem)
  · exact hdot _ hmem
  · exact absurd heq (by decide)
  · exact hdot _ hmem

/-- The claims, then the secret in place of the signature. -/
def plainEncode (claims : Claims) (secret : Text) : Text :=
  intText claims.iat ++ '.' :: (intText claims.exp ++ '.' ::
    (intText claims.sub.length ++ '.' :: (claims.sub ++ secret)))

def plainDecode (now : Time) (token secret : Text) : Except Text TokenPayload :=
  let (iat, rest) := partition '.' token
  let (exp, rest) := partition '.' rest
  let (length, rest) := partition '.' rest
  let sub := rest.take (ofIntText length).toNat
  if rest.drop (ofIntText length).toNat ≠ secret then .error "Signature verification failed".toList
  else if ¬ seconds (ofIntText iat) ≤ now then
    .error "The token is not yet valid (iat)".toList
  else if ¬ now < seconds (ofIntText exp) then .error "Signature has expired".toList
  else .ok ⟨some sub⟩

theorem plainDecode_encode (claims : Claims) (secret : Text) (now : Time) :
    plainDecode now (plainEncode claims secret) secret =
      if ¬ seconds claims.iat ≤ now then .error "The token is not yet valid (iat)".toList
      else if ¬ now < seconds claims.exp then .error "Signature has expired".toList
      else .ok ⟨some claims.sub⟩ := by
  have hsub : (claims.sub ++ secret).take claims.sub.length = claims.sub := List.take_left
  have hsecret : (claims.sub ++ secret).drop claims.sub.length = secret := List.drop_left
  simp only [plainDecode, plainEncode, partition_append (dot_notMem_intText _), ofIntText_intText,
    Int.toNat_natCast, hsub, hsecret, ne_eq, not_true, if_false]

/-- No package, but it keeps to what the package documents. -/
def plainJwt : Jwt where
  encode := plainEncode
  decode := plainDecode
  decode_encode claims secret now hiat hexp := by
    rw [plainDecode_encode, if_neg (not_not.2 hiat), if_neg (not_not.2 hexp)]
  decode_outside claims secret now h := by
    rw [plainDecode_encode]
    split
    · exact ⟨_, rfl⟩
    · rename_i hiat
      rw [if_pos fun hexp => h ⟨not_not.1 hiat, hexp⟩]
      exact ⟨_, rfl⟩
  encode_ne_nil claims secret := by simp [plainEncode]

/-- A token of one second, in it and at its end. -/
example :
    let token := plainJwt.encode (mintedClaims 1300000 7 (seconds 1)) "s".toList
    decodeAccessToken plainJwt 1999999 token "s".toList = .ok 7 ∧
      decodeAccessToken plainJwt 2000000 token "s".toList =
        .error "Signature has expired".toList := by
  decide +kernel

end Tokens

end MeJournal
