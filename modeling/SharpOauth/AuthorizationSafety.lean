import SharpOauth.AuthorizationEffects

/-! # Where codes go, and for which sessions

**Redirects** (`authorize_answer`).  Whatever the tables, the parameters and the session are, the
two browser-facing endpoints send the browser away from this server only to a URI that is
registered for the active client the request names.

**Re-authentication.**  A client may demand a fresh sign-in (`prompt=login`, `max_age`).
`decide` never issues a code against such a demand (`decide_reauthenticated`).
`completeConsent` does not look at it; `reauthenticated_iff` says when that shows. -/

namespace SharpOauth

namespace Authorization

/-! ### Redirects -/

/-- The redirect URI of a request, registered for the active client that the request names. -/
structure Registered (db : Db) (params : Params) (client : OAuthClient) (uri : String) : Prop where
  mem : client ∈ db.clients
  clientId : params.get "client_id" = some client.clientId
  active : client.disabledAt = none
  redirectUri : params.get "redirect_uri" = some uri
  registered : uri ∈ client.redirectUris

theorem Redirectable.toRegistered {db : Db} {params : Params} {client : OAuthClient} {uri : String}
    (h : Redirectable db (.fromParams params) client uri) : Registered db params client uri where
  mem := h.mem
  clientId := h.clientId
  active := by simpa [OAuthClient.isActive] using h.active
  redirectUri := h.redirectUri
  registered := h.registered

/-- The answers of the browser-facing endpoints to a request with the given parameters. -/
inductive Answer (st : AppState) (db : Db) (pairs : List (String × String)) : Response → Prop where
  | errorPage (title message : String) (r : Response)
      (h : r.body = .page (.error title message)) : Answer st db pairs r
  | consentPage (csrf name : String) (user : User) (scopes : List ScopeDescription)
      (fields : List (String × String)) (r : Response)
      (h : r.body = .page (.consent csrf name user scopes fields)) : Answer st db pairs r
  | signIn (query : String) : Answer st db pairs (redirect ("/signin?" ++ query))
  | toClient (hnodup : (pairs.map Prod.fst).Nodup) (params : Params)
      (hparams : Params.fromPairs pairs = .ok params) (client : OAuthClient) (uri : String)
      (hregistered : Registered db params client uri) (url : Url)
      (hurl : st.parseUrl uri = some url) (extra : List (String × String)) :
      Answer st db pairs (redirect (st.urlToString (extendQueryPairs url extra)))

theorem redirectWithParams_ok {cr : Crates} {uri location : String} {extra : List (String × String)}
    (h : redirectWithParams cr uri extra = .ok location) :
    ∃ url, cr.parseUrl uri = some url ∧ location = cr.urlToString (extendQueryPairs url extra) := by
  rw [redirectWithParams] at h
  cases hurl : cr.parseUrl uri with
  | none =>
      rw [hurl] at h
      cases h
  | some url =>
      rw [hurl] at h
      cases h
      exact ⟨url, rfl, rfl⟩

section answers

variable {st : AppState} {db : Db} {pairs : List (String × String)} {params : Params}
  {client : OAuthClient}

/-- A redirect built from a registered URI, or the error page if it is no URL. -/
theorem Answer.ofRedirect (hparams : Params.fromPairs pairs = .ok params) {uri : String}
    (h : Redirectable db (.fromParams params) client uri) (extra : List (String × String)) :
    Answer st db pairs (match redirectWithParams st.toCrates uri extra with
      | .ok location => redirect location
      | .error _ => internalError) := by
  cases hlocation : redirectWithParams st.toCrates uri extra with
  | error e => exact .errorPage _ _ _ rfl
  | ok location =>
      obtain ⟨url, hurl, rfl⟩ := redirectWithParams_ok hlocation
      exact .toClient ((Params.fromPairs_ok_iff pairs).1 ⟨params, hparams⟩) params hparams client uri
        h.toRegistered url hurl extra

/-- **No open redirector.**  The browser leaves this server only for a registered URI. -/
theorem authorize_answer (st : AppState) (db : Db) (d : Draws) (faults : List Bool)
    (headers : HeaderMap) (pairs : List (String × String)) :
    Answer st db pairs (serve st d faults (.authorize headers pairs) db).1 ∧
      Answer st db pairs (serve st d faults (.consent headers pairs) db).1 := by
  constructor
  · have h := serve_authorize st d headers pairs faults db
    generalize serve st d faults (.authorize headers pairs) db = out at h ⊢
    obtain ⟨response, db'⟩ := out
    cases h with
    | errorPage title message r h => exact .errorPage title message _ h
    | consentPage csrf v user scopes fields r h => exact .consentPage csrf _ user scopes fields _ h
    | signIn returnTo => exact .signIn _
    | redirected params hp client err h => exact .ofRedirect hp h _
    | issued params hp session user hs v hv => exact .ofRedirect hp hv.redirectable _
  · have h := serve_consent st d headers pairs faults db
    generalize serve st d faults (.consent headers pairs) db = out at h ⊢
    obtain ⟨response, db'⟩ := out
    cases h with
    | errorPage title message r h => exact .errorPage title message _ h
    | signIn returnTo => exact .signIn _
    | redirected params hp client err h => exact .ofRedirect hp h _
    | grantedOnly => exact .errorPage _ _ _ rfl
    | issued params hp hcsrf happroved session user hs v hv => exact .ofRedirect hp hv.redirectable _

end answers

end Authorization

/-! ### A small deployment

Two clients of one user, for the concrete runs of this development.  SHA-256 is given by its
values on the texts that these runs hash. -/

namespace Sample

/-- Texts, as numbers in base 256, and their SHA-256 digests. -/
def digests : List (ℕ × ℕ) := [
  (0x41774d4441774d4441774d4441774d4441774d4441774d4441774d4441774d4441774d4441774d4441774d,
    0x83bee072fbd3423f7481fc163821636ad8cfb73faef0dd0581f3979ea0c731b9),
  (0x42675947426759474267594742675947426759474267594742675947426759474267594742675947426759,
    0x4a872257959354dd4a92153e63a96c473254e71e9363f791b5097ff5ccab0f1f),
  (0x43516b4a43516b4a43516b4a43516b4a43516b4a43516b4a43516b4a43516b4a43516b4a43516b4a43516b,
    0x83cd213e468a2fbadb529623d69bd3683afb8f13a1f0abc3167d346bde303719),
  (0x4441774d4441774d4441774d4441774d4441774d4441774d4441774d4441774d4441774d4441774d444177,
    0xb0bc9af7f323ccf883996da7e3a0c52377b51337ed048f807d873f6e9cf46b27),
  (0x44773850447738504477385044773850447738504477385044773850447738504477385044773850447738,
    0x445770f0b336e9247076a80e008ef717f5d8a41b499403b34bb2596cf5ed517c),
  (0x45684953456849534568495345684953456849534568495345684953456849534568495345684953456849,
    0x5266c0d7bdd5a0c72029e336674c09399d5ea60e3a8bedc08bc707901bd67781),
  (0x30303030303030303030303030303030303030303030303030303030303030303030303030303030303030,
    0xb918b22a1581fedd39058065f00e6aad35bd561f20257151131a1ddcd21803de)]

def sha256 (m : List UInt8) : Vector UInt8 32 :=
  let n := (digests.lookup (m.foldl (fun n b => n * 256 + b.toNat) 0)).getD 0
  Vector.ofFn fun i => UInt8.ofNat (n / 256 ^ (31 - i.val))

/-- `https://{host}/cb` -/
def url (host : String) : Url where
  scheme := "https"
  username := ""
  password := none
  host := some (.domain host)
  port := none
  path := "/cb"
  query := none
  fragment := none

def passwordHash : String :=
  "$argon2id$v=19$m=19456,t=2,p=1$AQEBAQEBAQEBAQEBAQEBAQ$FGlXh8itGiEPkJl4VLoHXFF7l5JO1RPiRKoFjEigPqM"

def state : AppState where
  sha256 := sha256
  parseUrl s :=
    if s = "https://a.example/cb" then some (url "a.example")
    else if s = "https://b.example/cb" then some (url "b.example")
    else none
  urlToString u :=
    (match u.host with | some (.domain host) => "https://" ++ host | _ => "https://") ++ u.path ++
      (match u.query with | some query => "?" ++ query | none => "")
  toLowercase := asciiLower
  hashPassword _ password := if password = "password" then .ok passwordHash else .error "unsupported"
  verifyPassword password hash := .ok (password = "password" ∧ hash = passwordHash)
  issuer := "https://id.example"
  sign _ _ := .ok "header.payload.signature"
  dummyPasswordHash := passwordHash

/-- The `n`-th request of a run, served `n` seconds after the epoch. -/
def draws (n : ℕ) : Draws where
  now := Duration.seconds n
  uuid i := ⟨BitVec.ofNat 128 (3 * n + i)⟩
  secret i := Vector.replicate 32 (UInt8.ofNat (3 * n + i))
  salt := List.replicate 16 1

def user : User where
  id := ⟨3⟩
  email := "u@a.example"
  passwordHash := passwordHash
  displayName := none
  emailVerified := false
  createdAt := 1000000
  updatedAt := 1000000

def session : Session where
  id := ⟨4⟩
  userId := ⟨3⟩
  sessionTokenHash := "g77gcvvTQj90gfwWOCFjatjPtz-u8N0FgfOXnqDHMbk"
  expiresAt := 604801000000
  createdAt := 1000000
  revokedAt := none

def client (id : BitVec 128) (clientId name redirectUri : String) (now : Instant) : OAuthClient where
  id := ⟨id⟩
  clientId := clientId
  clientSecretHash := none
  name := name
  redirectUris := [redirectUri]
  allowedScopes := ["offline_access", "openid"]
  createdAt := now
  updatedAt := now
  disabledAt := none
  ownerUserId := none

def clientA : OAuthClient :=
  client 6 "sharp_client_BgYGBgYGBgYGBgYGBgYGBgYG" "A" "https://a.example/cb" 2000000

def clientB : OAuthClient :=
  client 9 "sharp_client_CQkJCQkJCQkJCQkJCQkJCQkJ" "B" "https://b.example/cb" 3000000

/-! The run: a sign-up, and two registrations on the command line. -/

def browser : HeaderMap := ⟨none, [utf8 "sharp_csrf=x"]⟩

/-- The browser after the sign-up. -/
def signedInBrowser : HeaderMap :=
  ⟨none, [utf8 "sharp_session=AwMDAwMDAwMDAwMDAwMDAwMDAwMDAwMDAwMDAwMDAwM; sharp_csrf=x"]⟩

def signUp : Request := .signUp browser ⟨"u@a.example", "password", none, none, some "x"⟩

def createA : Request := .createClient "A" ["https://a.example/cb"] "openid offline_access" true

def createB : Request := .createClient "B" ["https://b.example/cb"] "openid offline_access" true

def signedUp : Db := (Db.init.set .users [user]).set .sessions [session]

def registeredA : Db := signedUp.set .clients [clientA]

/-- One user with a session, and two clients. -/
def registered : Db := signedUp.set .clients [clientA, clientB]

/-- The tables one by one, for comparing them. -/
structure Rows where
  users : List User
  sessions : List Session
  scopes : List ScopeDescription
  clients : List OAuthClient
  codes : List AuthorizationCode
  consents : List OAuthConsent
  refreshTokens : List RefreshToken
deriving DecidableEq

def rows (db : Db) : Rows where
  users := db.users
  sessions := db.sessions
  scopes := db.scopes
  clients := db.clients
  codes := db.codes
  consents := db.consents
  refreshTokens := db.refreshTokens

theorem rows_inj {db db' : Db} (h : rows db = rows db') : db = db' := by
  simp only [rows, Rows.mk.injEq] at h
  funext t
  cases t <;> simp only [h]

theorem serve_signUp : (serve state (draws 1) [] signUp Db.init).2 = signedUp :=
  rows_inj (by decide +kernel)

theorem serve_createA : (serve state (draws 2) [] createA signedUp).2 = registeredA :=
  rows_inj (by decide +kernel)

theorem serve_createB : (serve state (draws 3) [] createB registeredA).2 = registered :=
  rows_inj (by decide +kernel)

/-- A request of the run, served without faults. -/
def event (n : ℕ) (req : Request) (before : Db) : Event :=
  ⟨req, draws n, [], before, (serve state (draws n) [] req before).1⟩

theorem uuid_inj {m n : ℕ} {i j : Fin 3} (hm : m < 80) (hn : n < 80)
    (h : (draws m).uuid i = (draws n).uuid j) : m = n ∧ i = j := by
  have h' : (3 * m + i.val) % 2 ^ 128 = (3 * n + j.val) % 2 ^ 128 := by
    simpa [draws] using congrArg (fun u => u.val.toNat) h
  have hi := i.isLt
  have hj := j.isLt
  rw [Nat.mod_eq_of_lt (by omega), Nat.mod_eq_of_lt (by omega)] at h'
  exact ⟨by omega, Fin.ext (by omega)⟩

theorem secret_inj {m n : ℕ} {i j : Fin 3} (hm : m < 80) (hn : n < 80)
    (h : (draws m).secret i = (draws n).secret j) : m = n ∧ i = j := by
  have h' : (3 * m + i.val) % 2 ^ 8 = (3 * n + j.val) % 2 ^ 8 := by
    simpa [draws] using congrArg (fun v : Vector UInt8 32 => (v[0]).toNat) h
  have hi := i.isLt
  have hj := j.isLt
  rw [Nat.mod_eq_of_lt (by omega), Nat.mod_eq_of_lt (by omega)] at h'
  exact ⟨by omega, Fin.ext (by omega)⟩

/-- A run of the deployment up to the `n`-th request. -/
structure Served (n : ℕ) (es : List Event) (db : Db) : Prop where
  run : Run state es db
  draws_lt : ∀ e ∈ es, ∃ m < n, e.draws = draws m

theorem Served.init : Served 1 [] Db.init := ⟨.init, fun _ h => nomatch h⟩

/-- The `n`-th draws are new after the ones before them. -/
theorem Served.fresh {n : ℕ} {es : List Event} {db : Db} (h : Served n es db) (hn : n < 80) :
    Fresh es (draws n) where
  uuid_inj _ _ hij := (Sample.uuid_inj hn hn hij).2
  secret_inj _ _ hij := (Sample.secret_inj hn hn hij).2
  clock e he := by
    obtain ⟨m, hm, hd⟩ := h.draws_lt e he
    rw [hd]
    show (m : ℤ) * 1000000 ≤ (n : ℤ) * 1000000
    omega
  uuid_new e he i j heq := by
    obtain ⟨m, hm, hd⟩ := h.draws_lt e he
    rw [hd] at heq
    exact absurd (Sample.uuid_inj (by omega) hn heq).1 (by omega)
  secret_new e he i j heq := by
    obtain ⟨m, hm, hd⟩ := h.draws_lt e he
    rw [hd] at heq
    exact absurd (Sample.secret_inj (by omega) hn heq).1 (by omega)

theorem Served.step {n : ℕ} {es : List Event} {db db' : Db} (h : Served n es db) (hn : n < 80)
    {req : Request} (hserve : (serve state (draws n) [] req db).2 = db') :
    Served (n + 1) (event n req db :: es) db' where
  run := by
    have hrun := h.run.step req (draws n) [] (h.fresh hn)
    rwa [hserve] at hrun
  draws_lt e he := by
    rcases List.mem_cons.1 he with rfl | he
    · exact ⟨n, by omega, rfl⟩
    · obtain ⟨m, hm, hd⟩ := h.draws_lt e he
      exact ⟨m, by omega, hd⟩

def registrations : List Event :=
  [event 3 createB registeredA, event 2 createA signedUp, event 1 signUp Db.init]

theorem served_registered : Served 4 registrations registered :=
  ((Served.init.step (by decide) serve_signUp).step (by decide) serve_createA).step (by decide)
    serve_createB

theorem signedIn : SignedIn state.toCrates (draws 4) signedInBrowser registered session user where
  mem := by simp [registered, signedUp, Store.set]
  cookie := ⟨"AwMDAwMDAwMDAwMDAwMDAwMDAwMDAwMDAwMDAwMDAwM", by decide +kernel⟩
  unrevoked := rfl
  unexpired := by decide
  user_mem := by simp [registered, signedUp, Store.set]
  user_id := rfl

/-- An authorization request of the first client. -/
def request (prompt : Option String) : Authorization.AuthorizationRequest where
  clientId := some "sharp_client_BgYGBgYGBgYGBgYGBgYGBgYG"
  redirectUri := some "https://a.example/cb"
  responseType := some "code"
  responseMode := none
  scope := some "openid offline_access"
  state := some "s"
  codeChallenge := some "uRiyKhWB_t05BYBl8A5qrTW9Vh8gJXFRExod3NIYA94"
  codeChallengeMethod := some "S256"
  nonce := none
  prompt := prompt
  maxAge := none
  hasRequestObject := false
  hasRequestUri := false

end Sample

/-! ### Re-authentication -/

namespace Authorization

/-- The request asks for a sign-in that `session` does not count as at the time `now`:
`prompt` contains `login`, or more than `max_age` whole seconds have passed. -/
def Demands (r : AuthorizationRequest) (session : Session) (now : Instant) : Prop :=
  "login" ∈ splitAll ' ' (r.prompt.getD "") ∨
    ∃ raw n, r.maxAge = some raw ∧ parseU32 raw = some n ∧
      (n : ℤ) < Duration.numSeconds (now - session.createdAt)

theorem Prompt.collect_login (values : List String) : ∀ p p' : Prompt, p.collect values = some p' →
    (p'.login = true ↔ p.login = true ∨ "login" ∈ values) := by
  induction values with
  | nil =>
      intro p p' h
      cases h
      simp
  | cons value rest ih =>
      intro p p' h
      rw [collect] at h
      split_ifs at h with hnone hlogin hconsent hselect
      · rw [ih _ _ h, hnone]
        simp
      · rw [ih _ _ h, hlogin]
        simp
      · rw [ih _ _ h, hconsent]
        simp
      · rw [ih _ _ h, hselect]
        simp

theorem Prompt.parse_login {raw : Option String} {p : Prompt} (h : parse raw = some p) :
    p.login = true ↔ "login" ∈ splitAll ' ' (raw.getD "") := by
  rw [parse, Option.bind_eq_bind, Option.bind_eq_some_iff] at h
  obtain ⟨p', hcollect, h⟩ := h
  split_ifs at h
  cases h
  rw [collect_login _ _ _ hcollect]
  simp

/-- `needs_reauthentication` in terms of the raw parameters. -/
theorem needsReauthentication_iff {db : Db} {r : AuthorizationRequest} {v : ValidatedRequest}
    (hv : Validated db r v) (session : Session) (now : Instant) :
    needsReauthentication v session now = true ↔ Demands r session now := by
  obtain ⟨-, -, -, -, -, hprompt, hmaxAge, -⟩ := checkRequest_ok hv.checked
  rw [needsReauthentication, Bool.or_eq_true, Prompt.parse_login hprompt, hmaxAge, Demands]
  refine or_congr Iff.rfl ?_
  cases hm : r.maxAge with
  | none => simp
  | some raw => cases hp : parseU32 raw <;> simp [hp]

/-- The request is valid, and `session` is recent enough for it. -/
def Reauthenticated (db : Db) (r : AuthorizationRequest) (session : Session) (now : Instant) : Prop :=
  ∃ v, Validated db r v ∧ needsReauthentication v session now = false

section reauthentication

variable (st : AppState) (d : Draws) (db : Db) (r : AuthorizationRequest) (session : Session)
  (user : User) (approved : Bool)

/-- The tables after `decide`. -/
def afterDecide (faults : List Bool) : Db :=
  ((decide st d r (some (session, user))).serve faults db).2

/-- The tables after `completeConsent`. -/
def afterConsent (faults : List Bool) : Db :=
  ((completeConsent st d r approved session user).serve faults db).2

/-- Every code that one of the two services stores is stored for a session that is recent
enough. -/
def CodesReauthenticated : Prop := ∀ faults : List Bool,
  ((afterDecide st d db r session user faults).codes ≠ db.codes →
      Reauthenticated db r session d.now) ∧
    ((afterConsent st d db r session user approved faults).codes ≠ db.codes →
      Reauthenticated db r session d.now)

variable {st d db r session user approved}

/-- `decide` issues no code against a demand. -/
theorem decide_reauthenticated (faults : List Bool)
    (h : (afterDecide st d db r session user faults).codes ≠ db.codes) :
    Reauthenticated db r session d.now := by
  rw [afterDecide] at h
  have hserve := Prog.wp_serve (S := Sharp) (R := DecideEffect st d r (true ∈ faults) db
    (some (session, user))) _ faults db (decide_wp _)
  generalize (decide st d r (some (session, user))).serve faults db = out at h hserve
  obtain ⟨result, db'⟩ := out
  cases hserve with
  | issued v hv session' user' hs hfresh =>
      cases hs
      exact ⟨v, hv, hfresh⟩
  | _ => exact absurd rfl h

theorem codes_grantStatement {userId clientId : Uuid} (scopes : ScopeSet) :
    (db.after (db.grantStatement userId clientId d scopes)).codes = db.codes :=
  db.after_of_writes (by simp [Db.grantStatement, Stmt.writes])

/-- A code that `completeConsent` stores was approved, for a valid request. -/
theorem completeConsent_approved (faults : List Bool)
    (h : (afterConsent st d db r session user approved faults).codes ≠ db.codes) :
    approved = true ∧ ∃ v, Validated db r v := by
  rw [afterConsent] at h
  have hserve := Prog.wp_serve (S := Sharp) (R := CompleteEffect st d r (true ∈ faults) db approved
    session user) _ faults db (completeConsent_wp _ _ _)
  generalize (completeConsent st d r approved session user).serve faults db = out at h hserve
  obtain ⟨result, db'⟩ := out
  cases hserve with
  | issued v hv happroved => exact ⟨happroved, v, hv⟩
  | grantedOnly => exact absurd (codes_grantStatement _) h
  | _ => exact absurd rfl h

/-- An approval of a valid request stores a code, whatever the session is. -/
theorem completeConsent_stores {v : ValidatedRequest} (hv : Validated db r v)
    (happroved : approved = true)
    (hcode : ∀ c ∈ db.codes, c.id ≠ d.uuid 0 ∧
      c.codeHash ≠ st.hashToken (generateToken (d.secret 0)))
    (hconsent : ∀ c ∈ db.consents, c.id ≠ d.uuid 1) :
    (afterConsent st d db r session user approved []).codes ≠ db.codes := by
  rw [afterConsent]
  have hserve := Prog.wp_serve (S := Sharp) (R := CompleteEffect st d r (true ∈ []) db approved
    session user) _ [] db (completeConsent_wp _ _ _)
  generalize (completeConsent st d r approved session user).serve [] db = out at hserve ⊢
  obtain ⟨result, db'⟩ := out
  have hinsert (v : ValidatedRequest) (e : SqlError)
      (he : (db.after (db.grantStatement user.id v.client.id d v.scope)).result
        (.codesInsert (newCode st.toCrates d v user session)) = .error e) : False := by
    obtain ⟨c, hc, h⟩ := Db.result_codesInsert_error _ he
    rw [codes_grantStatement] at hc
    rcases h with h | h
    · exact (hcode c hc).1 h.symm
    · exact (hcode c hc).2 h.symm
  cases hserve with
  | failed e h => simp at h
  | unsafeLink message h => exact absurd hv (h v)
  | redirected client err hr h => exact absurd hv (h happroved v)
  | unrecorded v e h =>
      obtain ⟨c, hc, hid⟩ := Db.result_consentsUpsert_error _ h
      exact absurd hid (hconsent c hc)
  | grantedOnly v hv happroved hgrant e h =>
      rcases h with h | ⟨e, he⟩
      · simp at h
      · exact (hinsert v e he).elim
  | issued v hv happroved hgrant hstored =>
      have hcodes := Db.after_codesInsert _ hstored
      rw [codes_grantStatement] at hcodes
      intro h
      exact absurd (congrArg List.length (hcodes.symm.trans h)) (by simp)

/-- **Both services honour a demand for re-authentication exactly when the consent form does
not approve a valid request that makes one.** -/
theorem reauthenticated_iff
    (hcode : ∀ c ∈ db.codes, c.id ≠ d.uuid 0 ∧
      c.codeHash ≠ st.hashToken (generateToken (d.secret 0)))
    (hconsent : ∀ c ∈ db.consents, c.id ≠ d.uuid 1) :
    CodesReauthenticated st d db r session user approved ↔
      ¬(approved = true ∧ (∃ v, Validated db r v) ∧ Demands r session d.now) := by
  constructor
  · rintro h ⟨happroved, ⟨v, hv⟩, hdemands⟩
    obtain ⟨v', hv', hfresh⟩ := (h []).2 (completeConsent_stores hv happroved hcode hconsent)
    rw [(needsReauthentication_iff hv' session d.now).2 hdemands] at hfresh
    cases hfresh
  · intro h faults
    refine ⟨decide_reauthenticated faults, fun hstored => ?_⟩
    obtain ⟨happroved, v, hv⟩ := completeConsent_approved faults hstored
    have hdemands : ¬Demands r session d.now := fun hd => h ⟨happroved, ⟨v, hv⟩, hd⟩
    refine ⟨v, hv, ?_⟩
    rwa [← needsReauthentication_iff hv, Bool.not_eq_true] at hdemands

/-- A consent form answers `prompt=login` with a code. -/
theorem consent_ignores_login : Reachable Sample.state Sample.registered ∧
    SignedIn Sample.state.toCrates (Sample.draws 4) Sample.signedInBrowser Sample.registered
      Sample.session Sample.user ∧
    ¬CodesReauthenticated Sample.state (Sample.draws 4) Sample.registered
      (Sample.request (some "login")) Sample.session Sample.user true := by
  refine ⟨⟨_, Sample.served_registered.run⟩, Sample.signedIn, fun h => ?_⟩
  obtain ⟨v, hv, hfresh⟩ := (h []).2 (by decide +kernel)
  have hdemands : needsReauthentication v Sample.session (Sample.draws 4).now = true :=
    (needsReauthentication_iff hv _ _).2 (.inl (by decide +kernel))
  exact nomatch hfresh.symm.trans hdemands

theorem reauthenticated_iff_registered :
    CodesReauthenticated Sample.state (Sample.draws 4) Sample.registered (Sample.request none)
        Sample.session Sample.user true ↔
      ¬(true = true ∧ (∃ v, Validated Sample.registered (Sample.request none) v) ∧
        Demands (Sample.request none) Sample.session (Sample.draws 4).now) :=
  reauthenticated_iff (fun _ h => nomatch h) (fun _ h => nomatch h)

end reauthentication

end Authorization

end SharpOauth
