import SharpOauth.TokenEffects

/-! # What the browser-facing OAuth endpoints do

`Validated db r v` says that the request `r` passed every check against the tables `db` and
was understood as `v`; `Redirectable db r client uri` that the first phase of the checks has
proved `uri` legitimate.  On top of these, `DecideEffect` and `CompleteEffect` list what the
two services can answer and store, and `AuthorizeEffect` and `ConsentEffect` what the two
endpoints can (`serve_authorize`, `serve_consent`). -/

namespace SharpOauth

namespace Authorization

/-! ### Validation -/

/-- `uri` is the redirect URI of the request and registered for the active client it names. -/
structure Redirectable (db : Db) (r : AuthorizationRequest) (client : OAuthClient) (uri : String) :
    Prop where
  found : ∃ clientId, r.clientId = some clientId ∧
    db.clients.find? (fun c => c.clientId = clientId) = some client
  active : client.isActive = true
  redirectUri : r.redirectUri = some uri
  registered : uri ∈ client.redirectUris

namespace Redirectable

variable {db : Db} {r : AuthorizationRequest} {client client' : OAuthClient} {uri uri' : String}

theorem mem (h : Redirectable db r client uri) : client ∈ db.clients := by
  obtain ⟨_, -, h⟩ := h.found
  exact List.mem_of_find?_eq_some h

theorem clientId (h : Redirectable db r client uri) : r.clientId = some client.clientId := by
  obtain ⟨clientId, hr, h⟩ := h.found
  have : client.clientId = clientId := by simpa using List.find?_some h
  rw [hr, this]

theorem eq (h : Redirectable db r client uri) (h' : Redirectable db r client' uri') :
    client = client' ∧ uri = uri' := by
  obtain ⟨clientId, hr, hf⟩ := h.found
  obtain ⟨clientId', hr', hf'⟩ := h'.found
  cases hr.symm.trans hr'
  exact ⟨Option.some.inj (hf.symm.trans hf'),
    Option.some.inj (h.redirectUri.symm.trans h'.redirectUri)⟩

end Redirectable

/-- The request passes every check. -/
structure Validated (db : Db) (r : AuthorizationRequest) (v : ValidatedRequest) : Prop where
  redirectable : Redirectable db r v.client v.redirectUri
  checked : checkRequest v.client v.redirectUri r = .ok v

theorem Validated.eq {db : Db} {r : AuthorizationRequest} {v v' : ValidatedRequest}
    (h : Validated db r v) (h' : Validated db r v') : v = v' := by
  obtain ⟨hc, hu⟩ := h.redirectable.eq h'.redirectable
  have hv' := h'.checked
  rw [← hc, ← hu] at hv'
  exact Except.ok.inj (h.checked.symm.trans hv')

theorem checkRequest_ok {client : OAuthClient} {uri : String} {r : AuthorizationRequest}
    {v : ValidatedRequest} (h : checkRequest client uri r = .ok v) :
    v.client = client ∧ v.redirectUri = uri ∧ (∃ raw, r.scope = some raw ∧ ScopeSet.parse raw = .ok v.scope) ∧
      (∀ x ∈ v.scope, x ∈ client.allowedScopes) ∧ v.nonce = r.nonce ∧
      Prompt.parse r.prompt = some v.prompt ∧
      v.maxAge = (r.maxAge.bind parseU32).map Int.ofNat ∧
      r.codeChallenge = some v.codeChallenge ∧ r.state = some v.state := by
  simp only [checkRequest, Check.bind_eq_ok, Check.that_eq_ok, Check.value_eq_ok, mapError_eq_ok] at h
  obtain ⟨_, _, _, _, _, _, _, _, state, hstate, _, _, raw, hraw, scope, hscope, _, hsub, challenge,
    hchallenge, _, _, _, _, _, _, prompt, hprompt, maxAge, hmaxAge, h⟩ := h
  cases h
  refine ⟨rfl, rfl, ⟨raw, hraw, hscope⟩, ?_, rfl, hprompt, ?_, hchallenge, hstate⟩
  · intro x hx
    exact ScopeSet.mem_ofList.1 (ScopeSet.isSubsetOf_iff.1 hsub x hx)
  · cases hm : r.maxAge with
    | none =>
        rw [hm] at hmaxAge
        cases hmaxAge
        rfl
    | some raw =>
        rw [hm, checkMaxAge] at hmaxAge
        show maxAge = (parseU32 raw).map Int.ofNat
        cases hp : parseU32 raw with
        | none => rw [hp] at hmaxAge; cases hmaxAge
        | some n => rw [hp] at hmaxAge; cases hmaxAge; rfl

theorem mapError_eq_error {α ε ε' : Type} {x : Except ε α} {f : ε → ε'} {e : ε'} :
    x.mapError f = .error e ↔ ∃ e', x = .error e' ∧ f e' = e := by
  cases x <;> simp [Except.mapError]

/-- The error is a redirect to `uri`. -/
def RedirectsTo (uri : String) (e : AuthorizationError) : Prop :=
  ∃ err : ErrorRedirect, e = .redirect err ∧ err.redirectUri = uri

theorem checkResponseType_error {fail : String → String → AuthorizationError} {uri : String}
    (hfail : ∀ a b, RedirectsTo uri (fail a b)) {o : Option String} {e : AuthorizationError}
    (h : checkResponseType fail o = .error e) : RedirectsTo uri e := by
  cases o with
  | none =>
      cases h
      exact hfail _ _
  | some responseType =>
      obtain ⟨_, rfl⟩ := Check.that_eq_error.1 h
      exact hfail _ _

theorem checkMaxAge_error {fail : String → String → AuthorizationError} {uri : String}
    (hfail : ∀ a b, RedirectsTo uri (fail a b)) {o : Option String} {e : AuthorizationError}
    (h : checkMaxAge fail o = .error e) : RedirectsTo uri e := by
  cases o with
  | none => cases h
  | some raw =>
      rw [checkMaxAge] at h
      cases hp : parseU32 raw with
      | none =>
          rw [hp] at h
          cases h
          exact hfail _ _
      | some n =>
          rw [hp] at h
          cases h

/-- Every error of the second phase goes to the redirect URI. -/
theorem checkRequest_error {client : OAuthClient} {uri : String} {r : AuthorizationRequest}
    {e : AuthorizationError} (h : checkRequest client uri r = .error e) : RedirectsTo uri e := by
  have hfail : ∀ a b : String, RedirectsTo uri (.redirect ⟨uri, r.state, a, b⟩) :=
    fun a b => ⟨_, rfl, rfl⟩
  simp only [checkRequest, Check.bind_eq_error, Check.that_eq_error, Check.value_eq_error,
    mapError_eq_error] at h
  rcases h with ⟨_, rfl⟩ | ⟨_, _, ⟨_, rfl⟩ | ⟨_, _, h | ⟨_, _, ⟨_, rfl⟩ | ⟨_, _, ⟨_, rfl⟩ | ⟨_, _,
    ⟨_, rfl⟩ | ⟨_, _, ⟨_, rfl⟩ | ⟨_, _, ⟨_, _, rfl⟩ | ⟨_, _, ⟨_, rfl⟩ | ⟨_, _, ⟨_, rfl⟩ | ⟨_, _,
    ⟨_, rfl⟩ | ⟨_, _, ⟨_, rfl⟩ | ⟨_, _, ⟨_, rfl⟩ | ⟨_, _, ⟨_, rfl⟩ | ⟨_, _, h |
    ⟨_, _, h⟩⟩⟩⟩⟩⟩⟩⟩⟩⟩⟩⟩⟩⟩⟩
  case inr.inr.inl => exact checkResponseType_error hfail h
  all_goals first
    | exact hfail _ _
    | exact checkMaxAge_error hfail h
    | cases h

/-- What `validate` can end in. -/
theorem wp_validate {α : Type} {flaky : Prop} {Q : Except AuthorizationError α → Conn Sharp → Prop}
    {db : Db} {r : AuthorizationRequest} {f : ValidatedRequest → Service AuthorizationError α}
    (hflaky : ∀ e, flaky → Q (.error (.internal e)) ⟨db, none⟩)
    (hlink : ∀ m, (∀ v, ¬Validated db r v) → Q (.error (.unsafeLink m)) ⟨db, none⟩)
    (hredirect : ∀ client err, Redirectable db r client err.redirectUri →
      (∀ v, ¬Validated db r v) → Q (.error (.redirect err)) ⟨db, none⟩)
    (hok : ∀ v, Validated db r v → (f v).wp flaky Q ⟨db, none⟩) :
    ((validate r).bind f).wp flaky Q ⟨db, none⟩ := by
  simp only [validate, Prog.bind_eq, Prog.bind_assoc, Prog.wp_okOr]
  refine ⟨fun clientId hid => ?_, fun hnone => hlink _ fun v hv => ?_⟩
  case refine_2 =>
    obtain ⟨_, hid, _⟩ := hv.redirectable.found
    exact nomatch hnone.symm.trans hid
  rw [wp_query_auto]
  refine ⟨hflaky _, fun found hfound => ?_, fun e he => nomatch he⟩
  have hfound : db.clients.find? (fun c => c.clientId = clientId) = found := Except.ok.inj hfound
  have hclient (v : ValidatedRequest) (hv : Validated db r v) : found = some v.client := by
    obtain ⟨id, hid', hf⟩ := hv.redirectable.found
    cases hid.symm.trans hid'
    exact hfound.symm.trans hf
  rw [db.after_of_reads rfl, Prog.wp_okOr]
  refine ⟨fun client hfilter => ?_, fun hnone => hlink _ fun v hv => ?_⟩
  case refine_2 =>
    rw [hclient v hv, Option.filter_some, if_pos hv.redirectable.active] at hnone
    cases hnone
  obtain ⟨rfl, hactive⟩ : found = some client ∧ client.isActive = true :=
    Option.filter_eq_some_iff.1 hfilter
  rw [Prog.wp_okOr]
  refine ⟨fun uri huri => ?_, fun hnone => hlink _ fun v hv =>
    nomatch hnone.symm.trans hv.redirectable.redirectUri⟩
  by_cases hregistered : client.hasRedirectUri uri = true
  · have hr : Redirectable db r client uri :=
      { found := ⟨clientId, hid, hfound⟩
        active := hactive
        redirectUri := huri
        registered := OAuthClient.hasRedirectUri_iff.1 hregistered }
    simp only [hregistered, Bool.not_true, Bool.false_eq_true, if_false, Prog.wp_ofExcept]
    refine ⟨fun v hv => ?_, fun e he => ?_⟩
    · obtain ⟨hc, hu, -⟩ := checkRequest_ok hv
      exact hok v ⟨by rw [hc, hu]; exact hr, by rw [hc, hu]; exact hv⟩
    · obtain ⟨err, rfl, rfl⟩ := checkRequest_error he
      refine hredirect client err hr fun v hv => ?_
      obtain ⟨hc, hu⟩ := hr.eq hv.redirectable
      rw [hc, hu] at he
      exact nomatch he.symm.trans hv.checked
  · simp only [hregistered, Bool.not_false, if_true, Prog.fail_bind, Prog.wp_fail]
    refine hlink _ fun v hv => hregistered ?_
    rw [Option.some.inj (hclient v hv), Option.some.inj (huri.symm.trans hv.redirectable.redirectUri)]
    exact OAuthClient.hasRedirectUri_iff.2 hv.redirectable.registered

/-! ### Consent -/

end Authorization

namespace Db

variable (db : Db) (userId clientId : Uuid)

/-- The scopes the user has approved for the client. -/
def activeScopes : Option ScopeSet :=
  ((db.consents.find? fun r => r.userId = userId ∧ r.clientId = clientId ∧ r.revokedAt = none).map
    OAuthConsent.scopes).map ScopeSet.ofList

/-- What they become when `scopes` are approved as well. -/
def scopesWith (scopes : ScopeSet) : ScopeSet :=
  match db.activeScopes userId clientId with
  | some existing => existing.union scopes
  | none => scopes

/-- The statement that records the approval. -/
def grantStatement (d : Draws) (scopes : ScopeSet) : Stmt :=
  .consentsUpsert (d.uuid 1) userId clientId (db.scopesWith userId clientId scopes).toList d.now

end Db

namespace Authorization

section services

variable {st : AppState} {d : Draws} {flaky : Prop} {db : Db}

theorem wp_grantedScopes {α : Type} {Q : Except AppError α → Conn Sharp → Prop}
    {userId clientId : Uuid} {f : Option ScopeSet → Service AppError α}
    (hflaky : ∀ e, flaky → Q (.error e) ⟨db, none⟩)
    (h : (f (db.activeScopes userId clientId)).wp flaky Q ⟨db, none⟩) :
    ((grantedScopes userId clientId).bind f).wp flaky Q ⟨db, none⟩ := by
  simp only [grantedScopes, Prog.bind_eq, Prog.pure_eq, Prog.bind_assoc, Prog.ret_bind]
  rw [wp_query_auto]
  refine ⟨hflaky _, fun found hfound => ?_, fun e he => nomatch he⟩
  rw [db.after_of_reads rfl]
  obtain rfl := Except.ok.inj hfound
  exact h

/-- Recording an approval fails, or stores the union. -/
theorem grant_wp {Q : Except AppError Unit → Conn Sharp → Prop} {userId clientId : Uuid}
    {scopes : ScopeSet} (hflaky : ∀ e, flaky → Q (.error e) ⟨db, none⟩)
    (herror : ∀ e, db.result (db.grantStatement userId clientId d scopes) = .error e →
      Q (.error (.database e)) ⟨db, none⟩)
    (hok : db.result (db.grantStatement userId clientId d scopes) = .ok () →
      Q (.ok ()) ⟨db.after (db.grantStatement userId clientId d scopes), none⟩) :
    (grant d userId clientId scopes).wp flaky Q ⟨db, none⟩ := by
  simp only [grant, Prog.bind_eq]
  refine wp_grantedScopes hflaky ?_
  -- The last statement of a program, as the first of one that only returns.
  have hret (q : Stmt) : (query q : Service AppError (Ret q)) = Prog.bind (query q) .ret :=
    (Prog.bind_ret _).symm
  rw [hret, wp_query_auto]
  refine ⟨hflaky _, fun _ h => hok h, fun e he => ?_⟩
  have hafter := Db.after_of_error he
  rw [hafter]
  exact herror e he

/-- The redirect that carries a new code. -/
def codeUrl (st : AppState) (d : Draws) (v : ValidatedRequest) : Except AppError String :=
  redirectWithParams st.toCrates v.redirectUri
    [("code", generateToken (d.secret 0)), ("state", v.state), ("iss", st.issuer)]

/-- Issuing a code fails, or stores its row. -/
theorem issueCode_wp {Q : Except AppError String → Conn Sharp → Prop} {v : ValidatedRequest}
    {user : User} {session : Session} (hflaky : ∀ e, flaky → Q (.error e) ⟨db, none⟩)
    (herror : ∀ e, db.result (.codesInsert (newCode st.toCrates d v user session)) = .error e →
      Q (.error (.database e)) ⟨db, none⟩)
    (hok : db.result (.codesInsert (newCode st.toCrates d v user session)) = .ok () →
      Q (codeUrl st d v) ⟨db.after (.codesInsert (newCode st.toCrates d v user session)), none⟩) :
    (issueCode st d v user session).wp flaky Q ⟨db, none⟩ := by
  simp only [issueCode, Prog.bind_eq]
  rw [wp_query_auto]
  refine ⟨hflaky _, fun _ h => ?_, fun e he => ?_⟩
  · have hQ := hok h
    rw [codeUrl] at hQ
    cases hurl : redirectWithParams st.toCrates v.redirectUri
        [("code", generateToken (d.secret 0)), ("state", v.state), ("iss", st.issuer)] with
    | ok url => rwa [hurl] at hQ
    | error e => rwa [hurl] at hQ
  · rw [Db.after_of_error he]
    exact herror e he

end services

/-! ### The two services -/

section effects

variable (st : AppState) (d : Draws) (r : AuthorizationRequest) (flaky : Prop) (db : Db)

/-- What an authorization request answers and does. -/
inductive DecideEffect (signedIn : Option (Session × User)) :
    Except AuthorizationError NextStep → Db → Prop where
  | failed (e : AppError) (h : flaky) : DecideEffect signedIn (.error (.internal e)) db
  | unsafeLink (message : String) : DecideEffect signedIn (.error (.unsafeLink message)) db
  | redirected (client : OAuthClient) (err : ErrorRedirect)
      (h : Redirectable db r client err.redirectUri) :
      DecideEffect signedIn (.error (.redirect err)) db
  | signIn : DecideEffect signedIn (.ok (.signIn r.withoutReauthentication.toPath)) db
  | askConsent (v : ValidatedRequest) (user : User) (scopes : List ScopeDescription) :
      DecideEffect signedIn (.ok (.askConsent v user scopes)) db
  | duplicate (v : ValidatedRequest) (session : Session) (user : User) (e : SqlError)
      (h : db.result (.codesInsert (newCode st.toCrates d v user session)) = .error e) :
      DecideEffect signedIn (.error (.internal (.database e))) db
  | issued (v : ValidatedRequest) (hv : Validated db r v) (session : Session) (user : User)
      (hs : signedIn = some (session, user)) (hfresh : needsReauthentication v session d.now = false)
      (granted : ScopeSet) (hgranted : db.activeScopes user.id v.client.id = some granted)
      (hscope : v.scope.isSubsetOf granted = true)
      (hinsert : db.result (.codesInsert (newCode st.toCrates d v user session)) = .ok ()) :
      DecideEffect signedIn ((codeUrl st d v).mapError .internal |>.map .redirectToClient)
        (db.after (.codesInsert (newCode st.toCrates d v user session)))

/-- What the answer on the consent screen does. -/
inductive CompleteEffect (approved : Bool) (session : Session) (user : User) :
    Except AuthorizationError String → Db → Prop where
  | failed (e : AppError) (h : flaky) :
      CompleteEffect approved session user (.error (.internal e)) db
  | unsafeLink (message : String) (h : ∀ v, ¬Validated db r v) :
      CompleteEffect approved session user (.error (.unsafeLink message)) db
  | redirected (client : OAuthClient) (err : ErrorRedirect)
      (hr : Redirectable db r client err.redirectUri)
      (h : approved = true → ∀ v, ¬Validated db r v) :
      CompleteEffect approved session user (.error (.redirect err)) db
  | unrecorded (v : ValidatedRequest) (e : SqlError)
      (h : db.result (db.grantStatement user.id v.client.id d v.scope) = .error e) :
      CompleteEffect approved session user (.error (.internal (.database e))) db
  | grantedOnly (v : ValidatedRequest) (hv : Validated db r v) (happroved : approved = true)
      (hgrant : db.result (db.grantStatement user.id v.client.id d v.scope) = .ok ()) (e : AppError)
      (h : flaky ∨ ∃ e, (db.after (db.grantStatement user.id v.client.id d v.scope)).result
        (.codesInsert (newCode st.toCrates d v user session)) = .error e) :
      CompleteEffect approved session user (.error (.internal e))
        (db.after (db.grantStatement user.id v.client.id d v.scope))
  | issued (v : ValidatedRequest) (hv : Validated db r v) (happroved : approved = true)
      (hgrant : db.result (db.grantStatement user.id v.client.id d v.scope) = .ok ())
      (hinsert : (db.after (db.grantStatement user.id v.client.id d v.scope)).result
        (.codesInsert (newCode st.toCrates d v user session)) = .ok ()) :
      CompleteEffect approved session user ((codeUrl st d v).mapError .internal)
        ((db.after (db.grantStatement user.id v.client.id d v.scope)).after
          (.codesInsert (newCode st.toCrates d v user session)))

end effects

section services

variable {st : AppState} {d : Draws} {r : AuthorizationRequest} {flaky : Prop} {db : Db}

/-- **All that the authorization endpoint can do.** -/
theorem decide_wp (signedIn : Option (Session × User)) : (decide st d r signedIn).wp flaky
    (fun res c => DecideEffect st d r flaky db signedIn res c.db) { db } := by
  simp only [decide, Prog.bind_eq, Prog.pure_eq]
  refine wp_validate (fun e h => .failed e h) (fun m _ => .unsafeLink m)
    (fun client err h _ => .redirected client err h) fun v hv => ?_
  cases hs : signedIn.filter fun s => !needsReauthentication v s.1 d.now with
  | none =>
      dsimp only
      split_ifs
      · exact .redirected v.client _ hv.redirectable
      · exact .signIn
  | some s =>
      obtain ⟨session, user⟩ := s
      obtain ⟨hs, hfresh⟩ := Option.filter_eq_some_iff.1 hs
      dsimp only
      rw [Prog.wp_lift_bind, ← Prog.bind_ret (grantedScopes _ _)]
      refine wp_grantedScopes (fun e h => .failed e h) ?_
      simp only [Prog.wp_ret]
      split_ifs with happroved hnone
      · rw [Prog.wp_lift_bind]
        rw [Bool.and_eq_true, Option.any_eq_true] at happroved
        obtain ⟨⟨granted, hgranted, hsub⟩, -⟩ := happroved
        refine issueCode_wp (fun e h => .failed e h) (fun e he => .duplicate v session user e he)
          fun hinsert => ?_
        have hissued : DecideEffect st d r flaky db signedIn _ _ :=
          .issued v hv session user hs (by simpa using hfresh) granted hgranted hsub hinsert
        cases hurl : codeUrl st d v with
        | ok url => rwa [hurl] at hissued
        | error e => rwa [hurl] at hissued
      · exact .redirected v.client _ hv.redirectable
      · rw [wp_query_auto]
        refine ⟨fun h => .failed _ h, fun scopes _ => ?_, by rintro e ⟨⟩⟩
        rw [db.after_of_reads rfl]
        exact .askConsent v user scopes

/-- **All that the answer on the consent screen can do.** -/
theorem completeConsent_wp (approved : Bool) (session : Session) (user : User) :
    (completeConsent st d r approved session user).wp flaky
      (fun res c => CompleteEffect st d r flaky db approved session user res c.db) { db } := by
  simp only [completeConsent, Prog.bind_eq]
  refine wp_validate (fun e h => .failed e h) .unsafeLink
    (fun client err hr h => .redirected client err hr fun _ => h) fun v hv => ?_
  split_ifs with happroved
  · refine .redirected v.client _ hv.redirectable fun h => ?_
    simp [h] at happroved
  · have happroved : approved = true := by simpa using happroved
    rw [Prog.wp_lift_bind]
    refine grant_wp (fun e h => .failed e h) (fun e he => .unrecorded v e he) fun hgrant => ?_
    dsimp only
    rw [Prog.wp_lift]
    refine issueCode_wp (fun e h => .grantedOnly v hv happroved hgrant e (.inl h))
      (fun e he => .grantedOnly v hv happroved hgrant _ (.inr ⟨e, he⟩)) fun hinsert => ?_
    have hissued : CompleteEffect st d r flaky db approved session user _ _ :=
      .issued v hv happroved hgrant hinsert
    cases hurl : codeUrl st d v with
    | ok url => rwa [hurl] at hissued
    | error e => rwa [hurl] at hissued

end services

end Authorization

/-! ### Browser sessions -/

/-- The cookie of the request belongs to an active session, and the session to `user`. -/
structure SignedIn (cr : Crates) (d : Draws) (headers : HeaderMap) (db : Db) (session : Session)
    (user : User) : Prop where
  mem : session ∈ db.sessions
  cookie : ∃ value, CookieManager.get headers Session.sessionCookie = some value ∧
    session.sessionTokenHash = cr.hashToken value
  unrevoked : session.revokedAt = none
  unexpired : d.now < session.expiresAt
  user_mem : user ∈ db.users
  user_id : user.id = session.userId

theorem wp_currentSession {α : Type} {flaky : Prop} {Q : Except AppError α → Conn Sharp → Prop}
    {db : Db} {cr : Crates} {d : Draws} {headers : HeaderMap}
    {f : Option (Session × User) → Service AppError α}
    (hflaky : ∀ e, flaky → Q (.error e) ⟨db, none⟩)
    (hok : ∀ signedIn, (∀ s ∈ signedIn, SignedIn cr d headers db s.1 s.2) →
      (f signedIn).wp flaky Q ⟨db, none⟩) :
    ((currentSession cr d headers).bind f).wp flaky Q ⟨db, none⟩ := by
  have hnone : (f none).wp flaky Q ⟨db, none⟩ := hok none fun s hs => nomatch hs
  rw [currentSession]
  cases hcookie : CookieManager.get headers Session.sessionCookie with
  | none => exact hnone
  | some value =>
      simp only [Session.findActive, Prog.bind_eq, Prog.pure_eq, Prog.bind_assoc]
      rw [wp_query_auto]
      refine ⟨hflaky _, fun found hfound => ?_, fun e he => nomatch he⟩
      rw [db.after_of_reads rfl]
      have hfound : db.sessions.find? (fun s => s.sessionTokenHash = cr.hashToken value ∧
        s.revokedAt = none ∧ d.now < s.expiresAt) = found := Except.ok.inj hfound
      cases found with
      | none => exact hnone
      | some session =>
          have hp := List.find?_some hfound
          simp only [decide_eq_true_eq] at hp
          dsimp only
          rw [Prog.bind_assoc, wp_query_auto]
          refine ⟨hflaky _, fun owner howner => ?_, fun e he => nomatch he⟩
          rw [db.after_of_reads rfl]
          have howner : db.users.find? (fun u => u.id = session.userId) = owner :=
            Except.ok.inj howner
          cases owner with
          | none => exact hnone
          | some user =>
              refine hok (some (session, user)) fun s hs => ?_
              obtain rfl := Option.some.inj hs
              exact
                { mem := List.mem_of_find?_eq_some hfound
                  cookie := ⟨value, hcookie, hp.1⟩
                  unrevoked := hp.2.1
                  unexpired := hp.2.2
                  user_mem := List.mem_of_find?_eq_some howner
                  user_id := by simpa using List.find?_some howner }

/-! ### The two endpoints -/

open Authorization

/-- The response that carries a new code. -/
def codeResponse (st : AppState) (d : Draws) (v : ValidatedRequest) : Response :=
  match codeUrl st d v with
  | .ok url => redirect url
  | .error _ => internalError

section effects

variable (st : AppState) (d : Draws) (headers : HeaderMap) (pairs : List (String × String))
  (flaky : Prop) (db : Db)

/-- What `/oauth/authorize` answers and does. -/
inductive AuthorizeEffect : Response → Db → Prop where
  | errorPage (title message : String) (response : Response)
      (h : response.body = .page (.error title message)) : AuthorizeEffect response db
  | consentPage (csrf : String) (v : ValidatedRequest) (user : User)
      (scopes : List ScopeDescription) (fields : List (String × String)) (response : Response)
      (h : response.body = .page (.consent csrf v.client.name user scopes fields)) :
      AuthorizeEffect response db
  | signIn (returnTo : String) : AuthorizeEffect (Apps.signInRedirect returnTo) db
  | redirected (params : Params) (hp : Params.fromPairs pairs = .ok params) (client : OAuthClient)
      (err : ErrorRedirect)
      (h : Redirectable db (.fromParams params) client err.redirectUri) :
      AuthorizeEffect (authorizationError st (.redirect err)) db
  | issued (params : Params) (hp : Params.fromPairs pairs = .ok params) (session : Session)
      (user : User) (hs : SignedIn st.toCrates d headers db session user) (v : ValidatedRequest)
      (hv : Validated db (.fromParams params) v)
      (hfresh : needsReauthentication v session d.now = false) (granted : ScopeSet)
      (hgranted : db.activeScopes user.id v.client.id = some granted)
      (hscope : v.scope.isSubsetOf granted = true)
      (hinsert : db.result (.codesInsert (newCode st.toCrates d v user session)) = .ok ()) :
      AuthorizeEffect (codeResponse st d v)
        (db.after (.codesInsert (newCode st.toCrates d v user session)))

/-- What `/oauth/consent` answers and does. -/
inductive ConsentEffect : Response → Db → Prop where
  | errorPage (title message : String) (response : Response)
      (h : response.body = .page (.error title message)) : ConsentEffect response db
  | signIn (returnTo : String) : ConsentEffect (Apps.signInRedirect returnTo) db
  | redirected (params : Params) (hp : Params.fromPairs pairs = .ok params) (client : OAuthClient)
      (err : ErrorRedirect)
      (h : Redirectable db (.fromParams params) client err.redirectUri) :
      ConsentEffect (authorizationError st (.redirect err)) db
  | grantedOnly (params : Params) (hp : Params.fromPairs pairs = .ok params)
      (hcsrf : Csrf.verify headers (params.get Csrf.csrfField) = true)
      (happroved : params.get "decision" = some "approve") (session : Session) (user : User)
      (hs : SignedIn st.toCrates d headers db session user) (v : ValidatedRequest)
      (hv : Validated db (.fromParams params) v)
      (hgrant : db.result (db.grantStatement user.id v.client.id d v.scope) = .ok ()) :
      ConsentEffect internalError (db.after (db.grantStatement user.id v.client.id d v.scope))
  | issued (params : Params) (hp : Params.fromPairs pairs = .ok params)
      (hcsrf : Csrf.verify headers (params.get Csrf.csrfField) = true)
      (happroved : params.get "decision" = some "approve") (session : Session) (user : User)
      (hs : SignedIn st.toCrates d headers db session user) (v : ValidatedRequest)
      (hv : Validated db (.fromParams params) v)
      (hgrant : db.result (db.grantStatement user.id v.client.id d v.scope) = .ok ())
      (hinsert : (db.after (db.grantStatement user.id v.client.id d v.scope)).result
        (.codesInsert (newCode st.toCrates d v user session)) = .ok ()) :
      ConsentEffect (codeResponse st d v)
        ((db.after (db.grantStatement user.id v.client.id d v.scope)).after
          (.codesInsert (newCode st.toCrates d v user session)))

end effects

section endpoints

variable (st : AppState) (d : Draws) (headers : HeaderMap) (pairs : List (String × String))
  (faults : List Bool) (db : Db)

theorem serve_authorize :
    AuthorizeEffect st d headers pairs db (serve st d faults (.authorize headers pairs) db).1
      (serve st d faults (.authorize headers pairs) db).2 := by
  refine Prog.wp_serve (S := Sharp) (R := fun r db' =>
    AuthorizeEffect st d headers pairs db (Prog.value r) db') _ faults db ?_
  show (orInternalError (authorize st d headers pairs)).wp _ _ _
  simp only [orInternalError, Prog.bind_eq]
  rw [Prog.wp_attempt_bind]
  simp only [authorize, Prog.bind_eq, Prog.pure_eq]
  have hpage (response : Response) (title message : String)
      (h : response.body = .page (.error title message)) :
      AuthorizeEffect st d headers pairs db response db := .errorPage title message _ h
  refine wp_currentSession (fun e _ => hpage _ _ _ rfl) fun signedIn hsigned => ?_
  cases hp : Params.fromPairs pairs with
  | error e => exact hpage _ _ _ rfl
  | ok params =>
      dsimp only
      rw [Prog.wp_attempt_bind]
      refine Prog.wp_mono (fun res c h => ?_) _ _ (decide_wp signedIn)
      obtain ⟨db', tx⟩ := c
      dsimp only at h
      cases h with
      | failed e h => exact hpage _ _ _ rfl
      | unsafeLink message => exact hpage _ _ _ rfl
      | redirected client err h => exact .redirected params hp client err h
      | signIn => exact .signIn _
      | askConsent v user scopes => exact .consentPage _ v user scopes _ _ rfl
      | duplicate v session user e h => exact hpage _ _ _ rfl
      | issued v hv session user hs hfresh granted hgranted hscope hinsert =>
          have hissued := AuthorizeEffect.issued params hp session user
            (hsigned (session, user) hs) v hv hfresh granted hgranted hscope hinsert
          rw [codeResponse] at hissued
          cases hurl : codeUrl st d v with
          | ok url => rwa [hurl] at hissued
          | error e => rwa [hurl] at hissued

theorem serve_consent :
    ConsentEffect st d headers pairs db (serve st d faults (.consent headers pairs) db).1
      (serve st d faults (.consent headers pairs) db).2 := by
  refine Prog.wp_serve (S := Sharp) (R := fun r db' =>
    ConsentEffect st d headers pairs db (Prog.value r) db') _ faults db ?_
  show (orInternalError (consent st d headers pairs)).wp _ _ _
  simp only [orInternalError, Prog.bind_eq]
  rw [Prog.wp_attempt_bind]
  simp only [consent, Prog.bind_eq, Prog.pure_eq]
  have hpage (response : Response) (title message : String)
      (h : response.body = .page (.error title message)) :
      ConsentEffect st d headers pairs db response db := .errorPage title message _ h
  refine wp_currentSession (fun e _ => hpage _ _ _ rfl) fun signedIn hsigned => ?_
  cases hp : Params.fromPairs pairs with
  | error e => exact hpage _ _ _ rfl
  | ok params =>
      dsimp only
      split_ifs with hrefused
      · exact hpage _ _ _ rfl
      have hcsrf : Csrf.verify headers (params.get Csrf.csrfField) = true := by simpa using hrefused
      cases signedIn with
      | none => exact .signIn _
      | some s =>
          obtain ⟨session, user⟩ := s
          have hs := hsigned _ rfl
          dsimp only
          rw [Prog.wp_attempt_bind]
          refine Prog.wp_mono (fun res c h => ?_) _ _
            (completeConsent_wp _ session user)
          obtain ⟨db', tx⟩ := c
          dsimp only at h
          cases h with
          | failed e h => exact hpage _ _ _ rfl
          | unsafeLink message h => exact hpage _ _ _ rfl
          | redirected client err hr h => exact .redirected params hp client err hr
          | unrecorded v e h => exact hpage _ _ _ rfl
          | grantedOnly v hv happroved hgrant e =>
              exact .grantedOnly params hp hcsrf (by simpa using happroved) session user hs v hv hgrant
          | issued v hv happroved hgrant hinsert =>
              have hissued := ConsentEffect.issued params hp hcsrf (by simpa using happroved) session
                user hs v hv hgrant hinsert
              rw [codeResponse] at hissued
              cases hurl : codeUrl st d v with
              | ok url => rwa [hurl] at hissued
              | error e => rwa [hurl] at hissued

end endpoints

end SharpOauth
