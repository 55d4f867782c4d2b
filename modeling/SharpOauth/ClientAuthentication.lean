import SharpOauth.ClientRegistry

/-! # Client authentication

The token and the revocation endpoint begin alike: they read the credentials of the request and
look up the client (`Client.login`).  Nothing is written before that, so a request that fails
there leaves no trace (`handle_refused`).

What the stored hashes are is an invariant of every run of the calls that change the registry:
a client's row holds the hash of the secret that was returned last for it, and a public client
never gets one (`ClientRun.secretsKept`). -/

namespace SharpOauth

namespace Client

/-! ### Credentials -/

/-- A form field that is not empty. -/
def Field (pairs : List (String × String)) (name value : String) : Prop :=
  (name, value) ∈ pairs ∧ value ≠ ""

/-- The request has a header of the scheme `Basic`. -/
def HasBasic (header : Option String) : Prop := ∃ h, header = some h ∧ hasScheme h "Basic" = true

/-- The request presents a `client_id`, and a secret or none, in one of the three ways. -/
inductive Presents (header : Option String) (pairs : List (String × String)) :
    String → Option String → Prop where
  | basic (h id secret : String) (hheader : header = some h)
      (hbasic : parseBasicAuthorization h = some (id, secret))
      (hsecret : ∀ s, ¬Field pairs "client_secret" s)
      (hid : ∀ id', Field pairs "client_id" id' → id' = id) : Presents header pairs id (some secret)
  | post (id secret : String) (hheader : ¬HasBasic header) (hid : Field pairs "client_id" id)
      (hsecret : Field pairs "client_secret" secret) : Presents header pairs id (some secret)
  | idOnly (id : String) (hheader : ¬HasBasic header) (hid : Field pairs "client_id" id)
      (hsecret : ∀ s, ¬Field pairs "client_secret" s) : Presents header pairs id none

theorem hasScheme_of_parse {header : String} {p : String × String}
    (h : parseBasicAuthorization header = some p) : hasScheme header "Basic" = true := by
  unfold parseBasicAuthorization at h
  cases hsplit : splitOnce ' ' header with
  | none =>
      rw [hsplit] at h
      cases h
  | some parts =>
      rw [hsplit] at h
      by_cases hscheme : asciiLower parts.1 = asciiLower "Basic"
      · unfold hasScheme
        rw [hsplit]
        simpa using hscheme
      · simp [hscheme] at h

section credentials

variable {header : Option String} {pairs : List (String × String)} {params : Params}
  {credentials : ClientCredentials}

theorem field_iff (hparams : Params.fromPairs pairs = .ok params) {name value : String} :
    params.get name = some value ↔ Field pairs name value := Params.get_eq_some_iff hparams

theorem no_field_iff (hparams : Params.fromPairs pairs = .ok params) {name : String} :
    params.get name = none ↔ ∀ value, ¬Field pairs name value := by
  rw [Option.eq_none_iff_forall_ne_some]
  exact forall_congr' fun value => not_congr (field_iff hparams)

/-- Without a `Basic` header the form is read. -/
theorem extractCredentials_form (hheader : ¬HasBasic header) :
    extractCredentials header params = (params.get "client_id").elim (.error .invalidClient)
      fun clientId => .ok ⟨clientId, params.get "client_secret"⟩ := by
  unfold extractCredentials
  cases header with
  | none => cases params.get "client_secret" <;> cases params.get "client_id" <;> rfl
  | some h =>
      have hscheme : hasScheme h "Basic" = false := by
        rw [← Bool.not_eq_true]
        exact fun hscheme => hheader ⟨h, rfl, hscheme⟩
      simp only [hscheme]
      cases params.get "client_secret" <;> cases params.get "client_id" <;> rfl

/-- A `Basic` header must be the only method, and agree with the form. -/
theorem extractCredentials_basic {h id secret : String}
    (hbasic : parseBasicAuthorization h = some (id, secret)) :
    extractCredentials (some h) params = .ok credentials ↔
      params.get "client_secret" = none ∧ (∀ id', params.get "client_id" = some id' → id' = id) ∧
        credentials = ⟨id, some secret⟩ := by
  have hscheme : hasScheme h "Basic" = true := hasScheme_of_parse hbasic
  unfold extractCredentials
  simp only [hscheme, if_true, hbasic, bind, Except.bind]
  cases params.get "client_secret" with
  | some s => exact ⟨fun h => (by cases h), fun h => (by cases h.1)⟩
  | none =>
      cases params.get "client_id" with
      | none =>
          constructor
          · intro h
            cases h
            exact ⟨rfl, fun id' h => (by cases h), rfl⟩
          · rintro ⟨-, -, rfl⟩
            rfl
      | some id' =>
          by_cases hid : id' = id
          · subst hid
            constructor
            · intro h
              have heq : ⟨id', some secret⟩ = credentials := by simpa using h
              exact ⟨rfl, fun id'' h => (Option.some.inj h).symm, heq.symm⟩
            · rintro ⟨-, -, rfl⟩
              simp
          · constructor
            · intro h
              simp [hid] at h
            · rintro ⟨-, hall, -⟩
              exact absurd (hall id' rfl) hid

theorem extractCredentials_malformed {h : String} (hscheme : hasScheme h "Basic" = true)
    (hnone : parseBasicAuthorization h = none) :
    extractCredentials (some h) params = .error .invalidClient := by
  unfold extractCredentials
  simp only [hscheme, if_true, hnone]
  rfl

/-- **The credentials that are read are the ones presented.** -/
theorem extractCredentials_ok_iff (hparams : Params.fromPairs pairs = .ok params) {id : String}
    {secret : Option String} :
    extractCredentials header params = .ok ⟨id, secret⟩ ↔ Presents header pairs id secret := by
  constructor
  · intro h
    by_cases hheader : HasBasic header
    · obtain ⟨header, rfl, hscheme⟩ := hheader
      cases hbasic : parseBasicAuthorization header with
      | none =>
          rw [extractCredentials_malformed hscheme hbasic] at h
          cases h
      | some p =>
          obtain ⟨hsecret, hid, heq⟩ := (extractCredentials_basic hbasic).1 h
          cases heq
          exact .basic header p.1 p.2 rfl hbasic ((no_field_iff hparams).1 hsecret)
            fun id' h => hid id' ((field_iff hparams).2 h)
    · rw [extractCredentials_form hheader] at h
      cases hid : params.get "client_id" with
      | none =>
          rw [hid] at h
          cases h
      | some clientId =>
          rw [hid] at h
          cases h
          have hid := (field_iff hparams).1 hid
          cases hsecret : params.get "client_secret" with
          | none => exact .idOnly _ hheader hid ((no_field_iff hparams).1 hsecret)
          | some secret => exact .post _ secret hheader hid ((field_iff hparams).1 hsecret)
  · intro h
    cases h with
    | basic header id secret hheader hbasic hsecret hid =>
        subst hheader
        exact (extractCredentials_basic hbasic).2 ⟨(no_field_iff hparams).2 hsecret,
          fun id' h => hid id' ((field_iff hparams).1 h), rfl⟩
    | post id secret hheader hid hsecret =>
        rw [extractCredentials_form hheader, (field_iff hparams).2 hid, (field_iff hparams).2 hsecret]
        rfl
    | idOnly id hheader hid hsecret =>
        rw [extractCredentials_form hheader, (field_iff hparams).2 hid,
          (no_field_iff hparams).2 hsecret]
        rfl

end credentials

/-! ### The login -/

/-- What the endpoints do before they know the client. -/
def login (cr : Crates) (header : Option String) (params : Params) : Service AppError OAuthClient := do
  let credentials ← Prog.ofExcept (extractCredentials header params)
  authenticate cr credentials

section login

variable {cr : Crates} {header : Option String} {params : Params} {client : OAuthClient}

/-- A login only reads. -/
theorem login_only : (login cr header params).Only Stmt.Reads := by
  unfold login
  refine Prog.only_bind (Prog.only_ofExcept _) fun credentials => ?_
  unfold authenticate
  refine Prog.only_bind (Prog.only_query (S := Sharp) (by rfl)) fun found => ?_
  cases found.filter OAuthClient.isActive with
  | none => exact .fail _
  | some client =>
      by_cases haccepts : accepts cr client credentials.clientSecret
      · simp only [haccepts, if_true]
        exact .ret _
      · simp only [haccepts]
        exact .fail _

theorem login_unchanged (faults : List Bool) (db : Db) :
    ((login cr header params).serve faults db).2 = db :=
  Prog.wp_serve (S := Sharp) (R := fun _ db' => db' = db) _ faults db
    (wp_reads (P := fun db' => db' = db) login_only rfl)

/-- The error of a login that no storage failure ended. -/
def loginError (header : Option String) (params : Params) : AppError :=
  match extractCredentials header params with
  | .ok _ => .invalidClient
  | .error e => e

/-- What a login answers. -/
inductive LoginAnswer (cr : Crates) (header : Option String) (params : Params) (flaky : Prop)
    (db : Db) : Except AppError OAuthClient → Prop where
  | failed (e : AppError) (h : flaky) : LoginAnswer cr header params flaky db (.error e)
  | accepted (client : OAuthClient) (credentials : ClientCredentials)
      (hc : extractCredentials header params = .ok credentials)
      (ha : Authenticated cr db credentials client) : LoginAnswer cr header params flaky db (.ok client)
  | refused (h : ∀ client credentials, extractCredentials header params = .ok credentials →
      ¬Authenticated cr db credentials client) :
      LoginAnswer cr header params flaky db (.error (loginError header params))

theorem login_answer (faults : List Bool) (db : Db) : LoginAnswer cr header params (true ∈ faults) db
    ((login cr header params).serve faults db).1 := by
  refine Prog.wp_serve (S := Sharp)
    (R := fun r _ => LoginAnswer cr header params (true ∈ faults) db r) _ faults db ?_
  unfold login
  rw [Prog.bind_eq, Prog.wp_ofExcept]
  refine ⟨fun credentials hc => ?_, fun e he => ?_⟩
  · have herror : loginError header params = .invalidClient := by
      unfold loginError
      rw [hc]
    rw [← Prog.bind_ret (authenticate cr credentials)]
    refine wp_authenticate (fun _ h => .failed _ h) (fun client ha => .accepted client credentials hc ha)
      fun hfail => ?_
    have hrefused : LoginAnswer cr header params (true ∈ faults) db
        (.error (loginError header params)) := by
      refine .refused fun client credentials' hc' => ?_
      cases hc.symm.trans hc'
      exact hfail client
    rwa [herror] at hrefused
  · have herror : loginError header params = e := by
      unfold loginError
      rw [he]
    have hrefused : LoginAnswer cr header params (true ∈ faults) db
        (.error (loginError header params)) := by
      refine .refused fun client credentials hc => ?_
      cases he.symm.trans hc
    rwa [herror] at hrefused

theorem login_ok_iff (db : Db) : ((login cr header params).serve [] db).1 = .ok client ↔
    ∃ credentials, extractCredentials header params = .ok credentials ∧
      Authenticated cr db credentials client := by
  have hanswer : LoginAnswer cr header params (true ∈ []) db
      ((login cr header params).serve [] db).1 := login_answer [] db
  generalize ((login cr header params).serve [] db).1 = r at hanswer ⊢
  cases hanswer with
  | failed e h => cases h
  | accepted client' credentials hc ha =>
      constructor
      · intro h
        cases h
        exact ⟨credentials, hc, ha⟩
      · rintro ⟨credentials', hc', ha'⟩
        cases hc.symm.trans hc'
        rw [ha.eq ha']
  | refused hno =>
      constructor
      · intro h
        cases h
      · rintro ⟨credentials, hc, ha⟩
        exact absurd ha (hno client credentials hc)

end login

end Client

/-! ### The endpoints -/

section endpoints

variable {st : AppState} {d : Draws} {header : Option String} {pairs : List (String × String)}
  {params : Params}

/-- What the token endpoint does for the client. -/
def Token.proceed (st : AppState) (d : Draws) (params : Params) (grantType : Token.GrantType)
    (client : OAuthClient) : Service AppError Token.TokenResponse :=
  match grantType with
  | .authorizationCode => Token.exchangeAuthorizationCode st d client params
  | .refreshToken => Token.exchangeRefreshToken st d client params

/-- What the revocation endpoint does for the client. -/
def Revocation.proceed (st : AppState) (d : Draws) (params : Params) (client : OAuthClient) :
    Service AppError Unit := do
  let token ← Prog.okOr (params.get "token") (.invalidRequest "token is required")
  match ← query (.tokensFindByHash (st.hashToken token)) with
  | none => return ()
  | some record =>
      if record.clientId ≠ client.id then
        .fail (.unauthorizedClient "the token was not issued to this client")
      else
        let _ ← query (.tokensRevokeFamily record.familyId d.now)
        return ()

theorem Token.handle_eq (hparams : Params.fromPairs pairs = .ok params) {grantType : Token.GrantType}
    (hgrant : Token.GrantType.parse (params.get "grant_type") = .ok grantType) :
    Token.handle st d header pairs =
      (Client.login st.toCrates header params).bind (Token.proceed st d params grantType) := by
  unfold Token.handle Client.login
  rw [hparams]
  simp only [Except.mapError, Prog.bind_eq, Prog.ofExcept_ok, Prog.ret_bind, hgrant, Prog.bind_assoc]
  cases grantType <;> rfl

theorem Revocation.handle_eq (hparams : Params.fromPairs pairs = .ok params) :
    Revocation.handle st d header pairs =
      (Client.login st.toCrates header params).bind (Revocation.proceed st d params) := by
  unfold Revocation.handle Client.login
  rw [hparams]
  simp only [Except.mapError, Prog.bind_eq, Prog.ofExcept_ok, Prog.ret_bind, Prog.bind_assoc]
  rfl

/-- **A program that starts with a login does nothing when the login fails**, and without a
storage failure its error is that of the login. -/
theorem Client.login_refused {α : Type} {cr : Crates} {f : OAuthClient → Service AppError α}
    {faults : List Bool} {db : Db}
    (h : ∀ client, ((Client.login cr header params).serve faults db).1 ≠ .ok client) :
    (((Client.login cr header params).bind f).serve faults db).2 = db ∧
      (true ∉ faults → (((Client.login cr header params).bind f).serve faults db).1 =
        .error (Client.loginError header params)) := by
  have hanswer : Client.LoginAnswer cr header params (true ∈ faults) db
      ((Client.login cr header params).serve faults db).1 := Client.login_answer faults db
  cases hserve : ((Client.login cr header params).serve faults db).1 with
  | ok client => exact absurd hserve (h client)
  | error e =>
      rw [Prog.serve_bind_error hserve]
      refine ⟨Client.login_unchanged faults db, fun hfaults => ?_⟩
      rw [hserve] at hanswer
      cases hanswer with
      | failed e h => exact absurd h hfaults
      | refused h => rfl

end endpoints

/-! ### Calls that change the registry -/

namespace Client

/-- A call of a function that changes the registry of clients. -/
inductive RegistryCall where
  | register (new : NewClient)
  | rotateSecret (client : OAuthClient)
  | updateDetails (client : OAuthClient) (details : ClientDetails)
  | delete (client : OAuthClient)

/-- The client that is changed. -/
def RegistryCall.target : RegistryCall → Option OAuthClient
  | .register _ => none
  | .rotateSecret client => some client
  | .updateDetails client _ => some client
  | .delete client => some client

/-- The raw secret of a new client, with the client's id. -/
def secretOf (r : RegisteredClient) : Option (Uuid × String) :=
  r.clientSecret.map fun secret => (r.client.id, secret)

/-- The secret that the call returns, with the id of its client, and the tables after it. -/
def RegistryCall.serve (cr : Crates) (d : Draws) (faults : List Bool) :
    RegistryCall → Db → Option (Uuid × String) × Db
  | .register new, db =>
      let r := (Client.register cr d new).serve faults db
      (r.1.toOption.bind secretOf, r.2)
  | .rotateSecret client, db =>
      let r := (Client.rotateSecret cr d client).serve faults db
      (r.1.toOption.join.map fun secret => (client.id, secret), r.2)
  | .updateDetails client details, db =>
      (none, ((Client.updateDetails cr d client details).serve faults db).2)
  | .delete client, db => (none, ((Client.delete client).serve faults db).2)

/-- What such a call returns and does. -/
inductive CallEffect (cr : Crates) (d : Draws) (db : Db) :
    RegistryCall → Option (Uuid × String) → Db → Prop where
  | unchanged (call : RegistryCall) : CallEffect cr d db call none db
  | registered (new : NewClient) (details : ClientDetails)
      (hinsert : db.result (.clientsInsert (newRow cr d new details)) = .ok ()) :
      CallEffect cr d db (.register new)
        ((if new.confidential then some (newClientSecret (d.secret 1)) else none).map
          fun secret => (d.uuid 0, secret))
        (db.after (.clientsInsert (newRow cr d new details)))
  | rotated (client : OAuthClient) (hconfidential : client.isConfidential = true) :
      CallEffect cr d db (.rotateSecret client) (some (client.id, newClientSecret (d.secret 1)))
        (db.after (.clientsUpdateSecretHash client.id (cr.hashToken (newClientSecret (d.secret 1)))
          d.now))
  | updated (client : OAuthClient) (raw details : ClientDetails) :
      CallEffect cr d db (.updateDetails client raw) none (db.after (.clientsUpdateDetails client.id
        details.name details.redirectUris details.scopes.toList d.now))
  | deleted (client : OAuthClient) :
      CallEffect cr d db (.delete client) none (db.after (.clientsDelete client.id))

section calls

attribute [local irreducible] trim

variable {cr : Crates} {d : Draws} {flaky : Prop} {db : Db}

theorem register_effect {new : NewClient} : (Client.register cr d new).wp flaky
    (fun r c => CallEffect cr d db (.register new) (r.toOption.bind secretOf) c.db) ⟨db, none⟩ := by
  refine register_wp (fun e => ?_) fun details _ hinsert => ?_
  · exact .unchanged _
  · exact .registered new details hinsert

theorem rotateSecret_effect {client : OAuthClient} : (Client.rotateSecret cr d client).wp flaky
    (fun r c => CallEffect cr d db (.rotateSecret client)
      (r.toOption.join.map fun secret => (client.id, secret)) c.db) ⟨db, none⟩ := by
  refine rotateSecret_wp (fun e => ?_) (fun _ => ?_) fun hconfidential => ?_
  · exact .unchanged _
  · exact .unchanged _
  · exact .rotated client hconfidential

theorem updateDetails_effect {client : OAuthClient} {raw : ClientDetails} :
    (Client.updateDetails cr d client raw).wp flaky
      (fun _ c => CallEffect cr d db (.updateDetails client raw) none c.db) ⟨db, none⟩ := by
  refine updateDetails_wp (fun e => ?_) fun details _ => ?_
  · exact .unchanged _
  · exact .updated client raw details

theorem delete_effect {client : OAuthClient} : (Client.delete client).wp flaky
    (fun _ c => CallEffect cr d db (.delete client) none c.db) ⟨db, none⟩ := by
  unfold Client.delete
  rw [← Prog.bind_ret (query _), wp_query_auto]
  refine ⟨fun _ => .unchanged _, fun _ _ => .deleted client, fun e he => ?_⟩
  rw [Db.after_of_error he]
  exact .unchanged _

theorem RegistryCall.serve_effect (faults : List Bool) (call : RegistryCall) :
    CallEffect cr d db call (call.serve cr d faults db).1 (call.serve cr d faults db).2 := by
  cases call with
  | register new =>
      have h := Prog.wp_serve (S := Sharp)
        (R := fun r db' => CallEffect cr d db (.register new) (r.toOption.bind secretOf) db')
        (Client.register cr d new) faults db register_effect
      exact h
  | rotateSecret client =>
      have h := Prog.wp_serve (S := Sharp) (R := fun r db' => CallEffect cr d db (.rotateSecret client)
        (r.toOption.join.map fun secret => (client.id, secret)) db')
        (Client.rotateSecret cr d client) faults db rotateSecret_effect
      exact h
  | updateDetails client raw =>
      have h := Prog.wp_serve (S := Sharp)
        (R := fun _ db' => CallEffect cr d db (.updateDetails client raw) none db')
        (Client.updateDetails cr d client raw) faults db updateDetails_effect
      exact h
  | delete client =>
      have h := Prog.wp_serve (S := Sharp)
        (R := fun _ db' => CallEffect cr d db (.delete client) none db')
        (Client.delete client) faults db delete_effect
      exact h

end calls

end Client

/-! ### Runs of these calls -/

/-- A call that was carried out. -/
structure ClientEvent where
  call : Client.RegistryCall
  draws : Draws
  faults : List Bool
  before : Db

/-- The secret that the call returned, with the id of its client. -/
def ClientEvent.returned (st : AppState) (e : ClientEvent) : Option (Uuid × String) :=
  (e.call.serve st.toCrates e.draws e.faults e.before).1

def ClientEvent.after (st : AppState) (e : ClientEvent) : Db :=
  (e.call.serve st.toCrates e.draws e.faults e.before).2

/-- `ClientRun st es db`: the calls `es` were carried out, the latest first, on clients that
existed, and the tables are now `db`.  Between the calls the other tables may change. -/
inductive ClientRun (st : AppState) : List ClientEvent → Db → Prop where
  | init {db : Db} (hunique : db.Unique) (h : db.clients = []) : ClientRun st [] db
  | call {es : List ClientEvent} (e : ClientEvent) (run : ClientRun st es e.before)
      (htarget : ∀ client, e.call.target = some client → client ∈ e.before.clients)
      (hnew : ∀ e' ∈ es, e'.draws.uuid 0 ≠ e.draws.uuid 0) : ClientRun st (e :: es) (e.after st)
  | other {es : List ClientEvent} {db db' : Db} (run : ClientRun st es db) (hunique : db'.Unique)
      (h : db'.clients = db.clients) : ClientRun st es db'

/-- The secret that was returned last for a client. -/
def latestSecret (st : AppState) (es : List ClientEvent) (id : Uuid) : Option String :=
  es.findSome? fun e => ((e.returned st).filter fun r => r.1 = id).map Prod.snd

section runs

variable {st : AppState} {es : List ClientEvent} {e : ClientEvent} {db : Db} {id : Uuid}

theorem latestSecret_of_none (h : e.returned st = none) :
    latestSecret st (e :: es) id = latestSecret st es id := by
  unfold latestSecret
  rw [List.findSome?_cons, h]
  rfl

theorem latestSecret_of_some {id' : Uuid} {secret : String} (h : e.returned st = some (id', secret)) :
    latestSecret st (e :: es) id = if id' = id then some secret else latestSecret st es id := by
  unfold latestSecret
  rw [List.findSome?_cons, h, Option.filter_some]
  by_cases hid : id' = id
  · rw [if_pos (by simpa using hid), if_pos hid]
    rfl
  · rw [if_neg (by simpa using hid), if_neg hid]
    rfl

/-- The stored hashes are those of the secrets returned last. -/
structure SecretsKept (st : AppState) (es : List ClientEvent) (db : Db) : Prop where
  hash : ∀ c ∈ db.clients, c.clientSecretHash = (latestSecret st es c.id).map st.hashToken
  drawn : ∀ c ∈ db.clients, ∃ e ∈ es, e.draws.uuid 0 = c.id
  returned : ∀ id, latestSecret st es id ≠ none → ∃ e ∈ es, e.draws.uuid 0 = id

/-- A call that returns no secret leaves the secrets as they are. -/
theorem SecretsKept.silent (h : SecretsKept st es e.before) (hnone : e.returned st = none)
    (hrows : ∀ c ∈ db.clients, ∃ c' ∈ e.before.clients,
      c.id = c'.id ∧ c.clientSecretHash = c'.clientSecretHash) : SecretsKept st (e :: es) db := by
  refine ⟨fun c hc => ?_, fun c hc => ?_, fun id hid => ?_⟩
  · obtain ⟨c', hc', hid, hhash⟩ := hrows c hc
    rw [latestSecret_of_none hnone, hhash, hid]
    exact h.hash c' hc'
  · obtain ⟨c', hc', hid, -⟩ := hrows c hc
    obtain ⟨e', he', hdrawn⟩ := h.drawn c' hc'
    exact ⟨e', List.mem_cons_of_mem _ he', hdrawn.trans hid.symm⟩
  · rw [latestSecret_of_none hnone] at hid
    obtain ⟨e', he', hdrawn⟩ := h.returned id hid
    exact ⟨e', List.mem_cons_of_mem _ he', hdrawn⟩

/-- A registration adds a row with the hash of the secret that it returns, or without one. -/
theorem SecretsKept.register (h : SecretsKept st es e.before)
    (hnew : ∀ e' ∈ es, e'.draws.uuid 0 ≠ e.draws.uuid 0) {secret : Option String}
    (hreturned : e.returned st = secret.map fun secret => (e.draws.uuid 0, secret))
    {row : OAuthClient} (hid : row.id = e.draws.uuid 0)
    (hhash : row.clientSecretHash = secret.map st.hashToken)
    (hclients : db.clients = e.before.clients ++ [row]) : SecretsKept st (e :: es) db := by
  -- No secret was returned for the new id before.
  have hnone : latestSecret st es (e.draws.uuid 0) = none := by
    by_contra hsome
    obtain ⟨e', he', hdrawn⟩ := h.returned _ hsome
    exact hnew e' he' hdrawn
  have hlatest : latestSecret st (e :: es) (e.draws.uuid 0) = secret := by
    cases secret with
    | none => rw [latestSecret_of_none hreturned, hnone]
    | some secret => rw [latestSecret_of_some hreturned, if_pos rfl]
  have hother (id : Uuid) (hne : e.draws.uuid 0 ≠ id) :
      latestSecret st (e :: es) id = latestSecret st es id := by
    cases secret with
    | none => exact latestSecret_of_none hreturned
    | some secret => rw [latestSecret_of_some hreturned, if_neg hne]
  refine ⟨fun c hc => ?_, fun c hc => ?_, fun id' hid' => ?_⟩
  · rw [hclients] at hc
    rcases List.mem_append.1 hc with hc | hc
    · obtain ⟨e', he', hdrawn⟩ := h.drawn c hc
      rw [hother c.id fun heq => hnew e' he' (hdrawn.trans heq.symm)]
      exact h.hash c hc
    · rw [List.mem_singleton.1 hc, hid, hlatest, hhash]
  · rw [hclients] at hc
    rcases List.mem_append.1 hc with hc | hc
    · obtain ⟨e', he', hdrawn⟩ := h.drawn c hc
      exact ⟨e', List.mem_cons_of_mem _ he', hdrawn⟩
    · exact ⟨e, List.mem_cons_self, by rw [List.mem_singleton.1 hc, hid]⟩
  · by_cases heq : e.draws.uuid 0 = id'
    · exact ⟨e, List.mem_cons_self, heq⟩
    · rw [hother id' heq] at hid'
      obtain ⟨e', he', hdrawn⟩ := h.returned id' hid'
      exact ⟨e', List.mem_cons_of_mem _ he', hdrawn⟩

/-- A rotation replaces the hash of its client. -/
theorem SecretsKept.rotate (h : SecretsKept st es e.before) {client : OAuthClient}
    (hclient : client ∈ e.before.clients) {secret : String} {now : Instant}
    (hreturned : e.returned st = some (client.id, secret))
    (hclients : db.clients = e.before.clients.map fun c => if c.id = client.id then
      { c with clientSecretHash := some (st.hashToken secret), updatedAt := now } else c) :
    SecretsKept st (e :: es) db := by
  refine ⟨fun c hc => ?_, fun c hc => ?_, fun id' hid' => ?_⟩
  · rw [hclients] at hc
    obtain ⟨c', hc', rfl⟩ := List.mem_map.1 hc
    rw [latestSecret_of_some hreturned]
    by_cases hid : c'.id = client.id
    · simp [hid]
    · rw [if_neg hid, if_neg (Ne.symm hid)]
      exact h.hash c' hc'
  · rw [hclients] at hc
    obtain ⟨c', hc', rfl⟩ := List.mem_map.1 hc
    obtain ⟨e', he', hdrawn⟩ := h.drawn c' hc'
    refine ⟨e', List.mem_cons_of_mem _ he', hdrawn.trans ?_⟩
    by_cases hid : c'.id = client.id
    · rw [if_pos hid]
    · rw [if_neg hid]
  · rw [latestSecret_of_some hreturned] at hid'
    by_cases heq : client.id = id'
    · obtain ⟨e', he', hdrawn⟩ := h.drawn client hclient
      exact ⟨e', List.mem_cons_of_mem _ he', hdrawn.trans heq⟩
    · rw [if_neg heq] at hid'
      obtain ⟨e', he', hdrawn⟩ := h.returned id' hid'
      exact ⟨e', List.mem_cons_of_mem _ he', hdrawn⟩

/-- **One call.** -/
theorem SecretsKept.step (h : SecretsKept st es e.before)
    (htarget : ∀ client, e.call.target = some client → client ∈ e.before.clients)
    (hnew : ∀ e' ∈ es, e'.draws.uuid 0 ≠ e.draws.uuid 0) :
    SecretsKept st (e :: es) (e.after st) := by
  have heffect : Client.CallEffect st.toCrates e.draws e.before e.call (e.returned st) (e.after st) :=
    e.call.serve_effect e.faults
  generalize hcall : e.call = call at heffect htarget
  generalize hr : e.returned st = r at heffect
  generalize e.after st = db' at heffect
  cases heffect with
  | unchanged => exact h.silent hr fun c hc => ⟨c, hc, rfl, rfl⟩
  | registered new details hinsert =>
      exact h.register hnew hr rfl rfl (after_clientsInsert_ok hinsert)
  | rotated client hconfidential =>
      exact h.rotate (htarget client rfl) hr (Db.after_clientsUpdateSecretHash ..)
  | updated client raw details =>
      refine h.silent hr fun c hc => ?_
      rw [Db.after_clientsUpdateDetails] at hc
      obtain ⟨c', hc', rfl⟩ := List.mem_map.1 hc
      refine ⟨c', hc', ?_⟩
      by_cases hid : c'.id = client.id
      · simp [hid]
      · simp [hid]
  | deleted client =>
      refine h.silent hr fun c hc => ?_
      rcases e.before.after_clientsDelete client.id with heq | hdelete
      · rw [heq] at hc
        exact ⟨c, hc, rfl, rfl⟩
      · rw [(deleteClient_clients hdelete).1] at hc
        exact ⟨c, (List.mem_filter.1 hc).1, rfl, rfl⟩

/-- **The stored hashes in every run.** -/
theorem ClientRun.secretsKept (run : ClientRun st es db) : SecretsKept st es db := by
  induction run with
  | init hunique h =>
      refine ⟨fun c hc => ?_, fun c hc => ?_, fun id hid => absurd rfl hid⟩
      · rw [h] at hc
        exact absurd hc List.not_mem_nil
      · rw [h] at hc
        exact absurd hc List.not_mem_nil
  | call e run htarget hnew ih => exact ih.step htarget hnew
  | other run hunique h ih =>
      refine ⟨fun c hc => ?_, fun c hc => ?_, ih.returned⟩
      · exact ih.hash c (h ▸ hc)
      · exact ih.drawn c (h ▸ hc)

theorem ClientRun.unique (run : ClientRun st es db) : db.Unique := by
  have hstatement (db : Db) (h : db.Unique) (q : Stmt) : (db.after q).Unique :=
    Sql.exec_unique sharp_lawful.clash_symm (sem q) (sharp_lawful.keepsKeys q) h
  induction run with
  | init hunique h => exact hunique
  | call e run htarget hnew ih =>
      have heffect : Client.CallEffect st.toCrates e.draws e.before e.call (e.returned st) (e.after st) :=
        e.call.serve_effect e.faults
      generalize e.returned st = r at heffect
      generalize e.after st = db' at heffect ⊢
      generalize e.call = call at heffect
      cases heffect with
      | unchanged => exact ih
      | registered => exact hstatement _ ih _
      | rotated => exact hstatement _ ih _
      | updated => exact hstatement _ ih _
      | deleted => exact hstatement _ ih _
  | other run hunique h ih => exact hunique

end runs

/-! ### Who may log in -/

/-- The strings whose hashes are compared: the secrets returned in the run and those presented. -/
inductive SecretOccurs (st : AppState) (es : List ClientEvent) (header : Option String)
    (pairs : List (String × String)) : String → Prop where
  | returned (e : ClientEvent) (he : e ∈ es) (id : Uuid) (secret : String)
      (h : e.returned st = some (id, secret)) : SecretOccurs st es header pairs secret
  | presented (id secret : String) (h : Client.Presents header pairs id (some secret)) :
      SecretOccurs st es header pairs secret

section authentication

variable {st : AppState} {es : List ClientEvent} {db : Db} {header : Option String}
  {pairs : List (String × String)} {params : Params} {client : OAuthClient}

theorem latestSecret_returned {id : Uuid} {secret : String}
    (h : latestSecret st es id = some secret) : ∃ e ∈ es, e.returned st = some (id, secret) := by
  obtain ⟨e, he, heq⟩ := List.exists_of_findSome?_eq_some h
  obtain ⟨r, hr, rfl⟩ := Option.map_eq_some_iff.1 heq
  obtain ⟨hreturned, hid⟩ := Option.filter_eq_some_iff.1 hr
  refine ⟨e, he, ?_⟩
  have hid : r.1 = id := by simpa using hid
  rw [hreturned, ← hid]

/-- The client that a `client_id` finds. -/
theorem authenticated_iff (hunique : db.Unique) {id : String} {secret : Option String} :
    Client.Authenticated st.toCrates db ⟨id, secret⟩ client ↔
      client ∈ db.clients ∧ client.clientId = id ∧ client.isActive = true ∧
        Client.accepts st.toCrates client secret = true := by
  constructor
  · exact fun h => ⟨h.mem, h.clientId_eq, h.active, h.accepted⟩
  · rintro ⟨hmem, hid, hactive, haccepts⟩
    refine ⟨?_, hactive, haccepts⟩
    exact hunique.find (t := .clients) hmem (by simp [hid]) fun c hc => by
      rw [decide_eq_true_eq] at hc
      simp [clash, hc, hid]

/-- **The stored hash accepts exactly the secret that was returned last.** -/
theorem accepts_iff (hkept : SecretsKept st es db) (hmem : client ∈ db.clients)
    (hinj : ∀ a b, SecretOccurs st es header pairs a → SecretOccurs st es header pairs b →
      st.sha256 (utf8 a) = st.sha256 (utf8 b) → a = b)
    {id : String} {secret : String} (hpresents : Client.Presents header pairs id (some secret)) :
    Client.accepts st.toCrates client (some secret) = true ↔
      latestSecret st es client.id = some secret := by
  unfold Client.accepts
  simp only [hkept.hash client hmem, constantTimeEq_utf8]
  cases hlatest : latestSecret st es client.id with
  | none => simp
  | some latest =>
      obtain ⟨e, he, hreturned⟩ := latestSecret_returned hlatest
      constructor
      · intro h
        have hhash : st.hashToken secret = st.hashToken latest := by simpa using h
        have hsha := Vector.toList_inj.1 (base64url_inj hhash)
        rw [hinj secret latest (.presented id secret hpresents) (.returned e he _ latest hreturned) hsha]
      · intro h
        cases h
        simp

/-- **Client authentication.** -/
theorem client_authentication (run : ClientRun st es db)
    (hparams : Params.fromPairs pairs = .ok params)
    (hinj : ∀ a b, SecretOccurs st es header pairs a → SecretOccurs st es header pairs b →
      st.sha256 (utf8 a) = st.sha256 (utf8 b) → a = b) :
    (∀ d grantType, Token.GrantType.parse (params.get "grant_type") = .ok grantType →
      Token.handle st d header pairs =
        (Client.login st.toCrates header params).bind (Token.proceed st d params grantType)) ∧
    (∀ d, Revocation.handle st d header pairs =
      (Client.login st.toCrates header params).bind (Revocation.proceed st d params)) ∧
    (∀ client, ((Client.login st.toCrates header params).serve [] db).1 = .ok client ↔
      client ∈ db.clients ∧ client.isActive = true ∧
        ((client.isConfidential = true ∧ ∃ secret, latestSecret st es client.id = some secret ∧
            Client.Presents header pairs client.clientId (some secret)) ∨
          (client.isConfidential = false ∧ Client.Presents header pairs client.clientId none))) ∧
    ∃ err, ∀ (db' : Db) (faults : List Bool),
      (∀ client, ((Client.login st.toCrates header params).serve faults db').1 ≠ .ok client) →
      ∀ d, (∀ grantType, Token.GrantType.parse (params.get "grant_type") = .ok grantType →
          ((Token.handle st d header pairs).serve faults db').2 = db' ∧
            (true ∉ faults → ((Token.handle st d header pairs).serve faults db').1 = .error err)) ∧
        ((Revocation.handle st d header pairs).serve faults db').2 = db' ∧
          (true ∉ faults →
            ((Revocation.handle st d header pairs).serve faults db').1 = .error err) := by
  have hkept := run.secretsKept
  refine ⟨fun d grantType hgrant => Token.handle_eq hparams hgrant,
    fun d => Revocation.handle_eq hparams, fun client => ?_,
    Client.loginError header params, fun db' faults hfails d => ⟨fun grantType hgrant => ?_, ?_⟩⟩
  · rw [Client.login_ok_iff]
    constructor
    · rintro ⟨⟨id, secret⟩, hc, ha⟩
      have hpresents := (Client.extractCredentials_ok_iff hparams).1 hc
      obtain ⟨hmem, rfl, hactive, haccepts⟩ := (authenticated_iff run.unique).1 ha
      refine ⟨hmem, hactive, ?_⟩
      cases secret with
      | none =>
          right
          exact ⟨by simpa [Client.accepts] using haccepts, hpresents⟩
      | some secret =>
          left
          have hlatest := (accepts_iff hkept hmem hinj hpresents).1 haccepts
          refine ⟨?_, secret, hlatest, hpresents⟩
          unfold OAuthClient.isConfidential
          rw [hkept.hash client hmem, hlatest]
          rfl
    · rintro ⟨hmem, hactive, ⟨-, secret, hlatest, hpresents⟩ | ⟨hpublic, hpresents⟩⟩
      · exact ⟨_, (Client.extractCredentials_ok_iff hparams).2 hpresents,
          (authenticated_iff run.unique).2 ⟨hmem, rfl, hactive,
            (accepts_iff hkept hmem hinj hpresents).2 hlatest⟩⟩
      · refine ⟨_, (Client.extractCredentials_ok_iff hparams).2 hpresents,
          (authenticated_iff run.unique).2 ⟨hmem, rfl, hactive, ?_⟩⟩
        simp [Client.accepts, hpublic]
  · rw [Token.handle_eq hparams hgrant]
    exact Client.login_refused hfails
  · rw [Revocation.handle_eq hparams]
    exact Client.login_refused hfails

end authentication

/-! ### A client that posts its secret -/

namespace Sample

/-- The registration of a confidential client. -/
def registerCall : ClientEvent where
  call := .register ⟨"A", ["https://a.example/cb"], ScopeSet.ofList ["openid", "offline_access"], true,
    none⟩
  draws := draws 2
  faults := []
  before := Db.init

def secretA : String := Client.newClientSecret ((draws 2).secret 1)

def confidentialA : OAuthClient := { clientA with clientSecretHash := some (state.hashToken secretA) }

/-- The credentials of a token request. -/
def secretForm : List (String × String) :=
  [("grant_type", "refresh_token"), ("client_id", clientA.clientId), ("client_secret", secretA)]

theorem registerCall_facts : registerCall.returned state = some (confidentialA.id, secretA) ∧
    (registerCall.after state).clients = [confidentialA] := by
  decide +kernel

theorem registerCall_run : ClientRun state [registerCall] (registerCall.after state) := by
  refine .call registerCall (.init (fun t => ?_) rfl) (fun client h => ?_) fun e he => ?_
  · cases t <;> decide
  · cases h
  · exact absurd he List.not_mem_nil

/-- The only secret of the run is the one presented. -/
theorem secretOccurs_eq {s : String} (h : SecretOccurs state [registerCall] none secretForm s) :
    s = secretA := by
  cases h with
  | returned e he id secret h =>
      rw [List.mem_singleton.1 he, registerCall_facts.1] at h
      cases h
      rfl
  | presented id secret h =>
      cases h with
      | basic h id secret hheader => cases hheader
      | post id secret hheader hid hsecret =>
          have hfield : ("client_secret", s) ∈ secretForm := hsecret.1
          simpa [secretForm] using hfield

end Sample

/-- The client of the sample may log in. -/
theorem client_authentication_post : ∃ params, Params.fromPairs Sample.secretForm = .ok params ∧
    ((Client.login Sample.state.toCrates none params).serve []
      (Sample.registerCall.after Sample.state)).1 = .ok Sample.confidentialA := by
  have hnodup : (Sample.secretForm.map Prod.fst).Nodup := by decide
  obtain ⟨params, hparams⟩ := (Params.fromPairs_ok_iff _).2 hnodup
  have hinj (a b : String) (ha : SecretOccurs Sample.state [Sample.registerCall] none Sample.secretForm a)
      (hb : SecretOccurs Sample.state [Sample.registerCall] none Sample.secretForm b)
      (_ : Sample.state.sha256 (utf8 a) = Sample.state.sha256 (utf8 b)) : a = b :=
    (Sample.secretOccurs_eq ha).trans (Sample.secretOccurs_eq hb).symm
  have hlatest : latestSecret Sample.state [Sample.registerCall] Sample.confidentialA.id =
      some Sample.secretA := by
    rw [latestSecret_of_some Sample.registerCall_facts.1, if_pos rfl]
  have hheader : ¬Client.HasBasic none := by
    rintro ⟨header, hnone, -⟩
    cases hnone
  have hpresents : Client.Presents none Sample.secretForm Sample.confidentialA.clientId
      (some Sample.secretA) := by
    refine .post _ _ hheader ⟨?_, by decide⟩ ⟨?_, by decide⟩
    · exact List.mem_cons_of_mem _ List.mem_cons_self
    · exact List.mem_cons_of_mem _ (List.mem_cons_of_mem _ List.mem_cons_self)
  refine ⟨params, hparams,
    ((client_authentication Sample.registerCall_run hparams hinj).2.2.1 _).2 ⟨?_, rfl, .inl ⟨rfl, ?_⟩⟩⟩
  · rw [Sample.registerCall_facts.2]
    exact List.mem_cons_self
  · exact ⟨_, hlatest, hpresents⟩

end SharpOauth
