import SharpOauth.History

/-! # Where tokens come from

Every session was started by a request in which its user authenticated (`Authenticates`), every
scope of a consent was approved by its user (`Approves`), and every refresh token was issued in
the answer to a request that descends from an issuance of a code (`Descends`, `TokenOrigin`).
A token response therefore speaks for the user, the session and the approvals at its root
(`token_provenance`). -/

namespace SharpOauth

open Token Authorization

/-! ### Sessions -/

/-- The session, perhaps revoked since. -/
structure SameSession (s s' : Session) : Prop where
  id : s'.id = s.id
  userId : s'.userId = s.userId
  sessionTokenHash : s'.sessionTokenHash = s.sessionTokenHash
  expiresAt : s'.expiresAt = s.expiresAt
  createdAt : s'.createdAt = s.createdAt

/-- The request that started a session: its user gave the password, or signed up, with the CSRF
token of the browser, and the session that is drawn for this user is stored. -/
inductive Authenticates (st : AppState) (e : Event) (session : Session) : Prop where
  | signIn (headers : HeaderMap) (form : SignInForm) (hreq : e.req = .signIn headers form)
      (hcsrf : Csrf.verify headers form.csrfToken = true) (user : User) (hmem : user ∈ e.before.users)
      (hemail : Account.normalizeEmail st.toCrates form.email = some user.email)
      (hverified : st.verifyPassword form.password user.passwordHash = .ok true)
      (hstarted : Session.fresh st.toCrates e.draws user ∈ (e.after st).sessions)
      (hsame : SameSession (Session.fresh st.toCrates e.draws user) session)
  | signUp (headers : HeaderMap) (form : SignUpForm) (hreq : e.req = .signUp headers form)
      (hcsrf : Csrf.verify headers form.csrfToken = true) (user : User)
      (hmem : user ∈ (e.after st).users)
      (hemail : Account.normalizeEmail st.toCrates form.email = some user.email)
      (hhash : st.hashPassword e.draws.salt form.password = .ok user.passwordHash)
      (hcreated : user.createdAt = e.draws.now)
      (hstarted : Session.fresh st.toCrates e.draws user ∈ (e.after st).sessions)
      (hsame : SameSession (Session.fresh st.toCrates e.draws user) session)

section sessions

variable {st : AppState} {es : List Event} {d : Draws} {db db' : Db} {headers : HeaderMap}

theorem SameSession.refl (s : Session) : SameSession s s := ⟨rfl, rfl, rfl, rfl, rfl⟩

theorem SameSession.trans {s s' s'' : Session} (h : SameSession s s') (h' : SameSession s' s'') :
    SameSession s s'' :=
  ⟨h'.id.trans h.id, h'.userId.trans h.userId, h'.sessionTokenHash.trans h.sessionTokenHash,
    h'.expiresAt.trans h.expiresAt, h'.createdAt.trans h.createdAt⟩

theorem Authenticates.same {e : Event} {s s' : Session} (h : Authenticates st e s)
    (hs : SameSession s s') : Authenticates st e s' := by
  cases h with
  | signIn headers form hreq hcsrf user hmem hemail hverified hstarted hsame =>
      exact .signIn headers form hreq hcsrf user hmem hemail hverified hstarted (hsame.trans hs)
  | signUp headers form hreq hcsrf user hmem hemail hhash hcreated hstarted hsame =>
      exact .signUp headers form hreq hcsrf user hmem hemail hhash hcreated hstarted (hsame.trans hs)

theorem Db.retire_session (db : Db) (cr : Crates) (d : Draws) (headers : HeaderMap) :
    ∀ s' ∈ (db.retire cr d headers).sessions, ∃ s ∈ db.sessions, SameSession s s' := by
  intro s' hs'
  rw [Db.retire] at hs'
  cases hcookie : CookieManager.get headers Session.sessionCookie with
  | none =>
      rw [hcookie] at hs'
      exact ⟨s', hs', .refl s'⟩
  | some old =>
      rw [hcookie] at hs'
      dsimp only at hs'
      rw [Db.after_sessionsRevokeByHash] at hs'
      obtain ⟨s, hs, rfl⟩ := List.mem_map.1 hs'
      refine ⟨s, hs, ?_⟩
      split_ifs <;> exact ⟨rfl, rfl, rfl, rfl, rfl⟩

theorem StartEffect.session_row {user : User} (h : StartEffect st d headers db user db') :
    ∀ s' ∈ db'.sessions, (∃ s ∈ db.sessions, SameSession s s') ∨
      s' = Session.fresh st.toCrates d user := by
  intro s' hs'
  cases h with
  | unchanged => exact .inl ⟨s', hs', .refl s'⟩
  | retired => exact .inl (db.retire_session _ _ _ s' hs')
  | started h =>
      rw [Db.after_sessionsInsert _ h] at hs'
      rcases List.mem_append.1 hs' with hs' | hs'
      · exact .inl (db.retire_session _ _ _ s' hs')
      · exact .inr (List.mem_singleton.1 hs')

theorem StartEffect.users {user : User} (h : StartEffect st d headers db user db') :
    db'.users = db.users := by
  have hretire : db.retire st.toCrates d headers .users = db .users := by
    rw [Db.retire]
    cases CookieManager.get headers Session.sessionCookie with
    | some old => exact db.after_of_writes (by simp [Stmt.writes])
    | none => rfl
  cases h with
  | unchanged => rfl
  | retired => exact hretire
  | started h => exact (Db.after_of_writes _ (by simp [Stmt.writes])).trans hretire

theorem Registry.frame (h : Registry d db db') {t : Table} (ht : t = .users ∨ t = .sessions) :
    db' t = db t := by
  induction h with
  | refl => rfl
  | tail _ hstep ih =>
      obtain ⟨q, hq, rfl⟩ := hstep
      refine (Db.after_of_writes _ ?_).trans ih
      cases hq with
      | read q h => simp [h]
      | _ => rcases ht with rfl | rfl <;> simp [Stmt.writes]

/-- **Where a session comes from.** -/
theorem Event.session_row (st : AppState) (e : Event) : ∀ s' ∈ (e.after st).sessions,
    (∃ s ∈ e.before.sessions, SameSession s s') ∨ Authenticates st e s' := by
  have heffect := e.effect st
  generalize hafter : e.after st = db' at heffect ⊢
  generalize hreq : e.req = req at heffect
  generalize e.answer st = answer at heffect
  have hkept (h : db' .sessions = e.before .sessions) (s' : Session) (hs' : s' ∈ db'.sessions) :
      (∃ s ∈ e.before.sessions, SameSession s s') ∨ Authenticates st e s' := by
    rw [Db.sessions, h] at hs'
    exact .inl ⟨s', hs', .refl s'⟩
  cases heffect with
  | authorize headers pairs r db' h => exact hkept (h.frame (by decide))
  | consent headers pairs r db' h => exact hkept (h.frame (by decide) (by decide))
  | token headers pairs r db' h => exact hkept (h.frame (by decide) (by decide))
  | revoke headers pairs r db' h => exact hkept (h.frame (by decide))
  | notAForm => exact hkept rfl
  | registry req hreq r db' h => exact hkept (h.frame (.inr rfl))
  | account req r db' h =>
      cases h with
      | unchanged => exact hkept rfl
      | logout headers csrfToken =>
          exact fun s' hs' => .inl (e.before.retire_session _ _ _ s' hs')
      | signIn headers form hcsrf user hmem hemail hverified db' h =>
          intro s' hs'
          rcases h.session_row s' hs' with hs | rfl
          · exact .inl hs
          · exact .inr (.signIn headers form hreq hcsrf user hmem hemail hverified
              (hafter ▸ hs') (.refl _))
      | signUp headers form hcsrf email passwordHash displayName hemail hhash hinsert db' h =>
          intro s' hs'
          rcases h.session_row s' hs' with hs | rfl
          · rw [Db.sessions, Db.after_of_writes _ (by simp [Stmt.writes])] at hs
            exact .inl hs
          · refine .inr (.signUp headers form hreq hcsrf _ ?_ hemail hhash rfl (hafter ▸ hs') (.refl _))
            rw [hafter, h.users, Db.after_usersInsert _ hinsert]
            exact List.mem_append_right _ (List.mem_singleton_self _)

/-- **Every session was started by a request of the run.** -/
theorem Run.session_origin (run : Run st es db) :
    ∀ s ∈ db.sessions, ∃ e ∈ es, Authenticates st e s := by
  induction run with
  | init => exact fun s hs => absurd hs List.not_mem_nil
  | @step es db run req d faults fresh ih =>
      intro s' hs'
      have hrow := Event.session_row st ⟨req, d, faults, db, (serve st d faults req db).1⟩ s' hs'
      rcases hrow with ⟨s, hs, hsame⟩ | h
      · obtain ⟨e, he, h⟩ := ih s hs
        exact ⟨e, List.mem_cons_of_mem _ he, h.same hsame⟩
      · exact ⟨_, List.mem_cons_self, h⟩

end sessions

/-! ### Approvals -/

/-- A signed-in user approves a scope for a client on the consent screen. -/
inductive Approves (st : AppState) (e : Event) (userId clientId : Uuid) (scope : String) : Prop where
  | intro (headers : HeaderMap) (pairs : List (String × String)) (params : Params) (session : Session)
      (user : User) (v : ValidatedRequest)
      (happroval : Approval st e headers pairs params session user v) (huser : user.id = userId)
      (hclient : v.client.id = clientId) (hscope : scope ∈ v.scope)

/-- The scope is in a consent of the user for the client. -/
def Recorded (db : Db) (userId clientId : Uuid) (scope : String) : Prop :=
  ∃ c ∈ db.consents, c.userId = userId ∧ c.clientId = clientId ∧ scope ∈ c.scopes

section approvals

variable {st : AppState} {es : List Event} {d : Draws} {db db' : Db} {userId clientId : Uuid}
  {scope : String}

theorem Db.recorded_of_active {scopes : ScopeSet} (h : db.activeScopes userId clientId = some scopes)
    (hscope : scope ∈ scopes) : Recorded db userId clientId scope := by
  rw [Db.activeScopes, Option.map_map, Option.map_eq_some_iff] at h
  obtain ⟨c, hc, rfl⟩ := h
  have hp := List.find?_some hc
  simp only [decide_eq_true_eq] at hp
  exact ⟨c, List.mem_of_find?_eq_some hc, hp.1, hp.2.1, ScopeSet.mem_ofList.1 hscope⟩

theorem Db.mem_scopesWith {scopes : ScopeSet} (h : scope ∈ db.scopesWith userId clientId scopes) :
    scope ∈ scopes ∨ Recorded db userId clientId scope := by
  rw [Db.scopesWith] at h
  cases hactive : db.activeScopes userId clientId with
  | none =>
      rw [hactive] at h
      exact .inl h
  | some existing =>
      rw [hactive] at h
      rcases ScopeSet.mem_union.1 h with h | h
      · exact .inr (Db.recorded_of_active hactive h)
      · exact .inl h

/-- An upsert records what is approved, and what was recorded before. -/
theorem Db.recorded_after_grant {scopes : ScopeSet} {user client : Uuid} {u : Unit}
    (h : db.result (db.grantStatement user client d scopes) = .ok u)
    (hrec : Recorded (db.after (db.grantStatement user client d scopes)) userId clientId scope) :
    Recorded db userId clientId scope ∨ user = userId ∧ client = clientId ∧ scope ∈ scopes := by
  have hnew (x : String) (hx : x ∈ (db.scopesWith user client scopes).toList) :
      Recorded db user client x ∨ x ∈ scopes := (Db.mem_scopesWith (ScopeSet.mem_toList.1 hx)).symm
  obtain ⟨c', hc', rfl, rfl, hscope⟩ := hrec
  rcases Db.after_consentsUpsert db h with ⟨-, hrows⟩ | ⟨-, hrows⟩
  · rw [Db.grantStatement, hrows] at hc'
    obtain ⟨c, hc, rfl⟩ := List.mem_map.1 hc'
    by_cases hpair : c.userId = user ∧ c.clientId = client
    · obtain ⟨rfl, rfl⟩ := hpair
      rw [Db.approve, if_pos ⟨rfl, rfl⟩] at hscope ⊢
      rcases hnew scope hscope with h | h
      · exact .inl h
      · exact .inr ⟨rfl, rfl, h⟩
    · rw [Db.approve, if_neg hpair] at hscope ⊢
      exact .inl ⟨c, hc, rfl, rfl, hscope⟩
  · rw [Db.grantStatement, hrows] at hc'
    rcases List.mem_append.1 hc' with hc' | hc'
    · exact .inl ⟨c', hc', rfl, rfl, hscope⟩
    · rw [List.mem_singleton.1 hc'] at hscope ⊢
      rcases hnew scope hscope with h | h
      · exact .inl h
      · exact .inr ⟨rfl, rfl, h⟩

theorem Registry.consents_subset (h : Registry d db db') : db'.consents ⊆ db.consents := by
  induction h with
  | refl => exact List.Subset.refl _
  | tail _ hstep ih =>
      obtain ⟨q, hq, rfl⟩ := hstep
      intro c hc
      refine ih ?_
      cases hq with
      | read q h => rwa [Db.consents, Db.after_of_writes _ (by simp [h])] at hc
      | clientsDelete id =>
          rcases Db.after_clientsDelete _ id with h | h
          · rwa [h] at hc
          · rw [(deleteClient_clients h).2] at hc
            exact (List.mem_filter.1 hc).1
      | _ => rwa [Db.consents, Db.after_of_writes _ (by simp [Stmt.writes])] at hc

theorem Registry.recorded (h : Registry d db db') (hrec : Recorded db' userId clientId scope) :
    Recorded db userId clientId scope := by
  obtain ⟨c, hc, huser, hclient, hscope⟩ := hrec
  exact ⟨c, h.consents_subset hc, huser, hclient, hscope⟩

/-- **Where a consent comes from.** -/
theorem Event.recorded (st : AppState) (e : Event)
    (h : Recorded (e.after st) userId clientId scope) :
    Recorded e.before userId clientId scope ∨ Approves st e userId clientId scope := by
  have heffect := e.effect st
  generalize hafter : e.after st = db' at heffect h
  generalize hreq : e.req = req at heffect
  generalize e.answer st = answer at heffect
  have hkept (hconsents : db' .consents = e.before .consents) :
      Recorded e.before userId clientId scope := by
    rwa [Recorded, Db.consents, hconsents] at h
  cases heffect with
  | authorize headers pairs r db' h => exact .inl (hkept (h.frame (by decide)))
  | token headers pairs r db' h => exact .inl (hkept (h.frame (by decide) (by decide)))
  | revoke headers pairs r db' h => exact .inl (hkept (h.frame (by decide)))
  | notAForm => exact .inl h
  | account req r db' h => exact .inl (hkept (h.frame (by decide) (by decide)))
  | registry req hreq r db' h' => exact .inl (h'.recorded h)
  | consent headers pairs r db' h' =>
      have hgranted {params : Params} {session : Session} {user : User} {v : ValidatedRequest}
          (happroval : Approval st e headers pairs params session user v) :
          Recorded e.before userId clientId scope ∨ Approves st e userId clientId scope := by
        rw [Recorded, ← hafter, happroval.stored] at h
        rcases Db.recorded_after_grant happroval.granted h with hrec | ⟨huser, hclient, hscope⟩
        · exact .inl hrec
        · exact .inr (.intro headers pairs params session user v happroval huser hclient hscope)
      cases h' with
      | grantedOnly params hp hcsrf happroved session user hs v hv hgrant =>
          exact hgranted ⟨hreq, hp, hcsrf, happroved, hs, hv, hgrant, by rw [hafter]⟩
      | issued params hp hcsrf happroved session user hs v hv hgrant hinsert =>
          refine hgranted ⟨hreq, hp, hcsrf, happroved, hs, hv, hgrant, ?_⟩
          rw [hafter]
          exact Db.after_of_writes (t := .consents) _ (by simp [Stmt.writes])
      | _ => exact .inl h

/-- **Every recorded scope was approved in the run.** -/
theorem Run.approved (run : Run st es db) (h : Recorded db userId clientId scope) :
    ∃ e ∈ es, Approves st e userId clientId scope := by
  induction run with
  | init =>
      obtain ⟨c, hc, -⟩ := h
      exact absurd hc List.not_mem_nil
  | @step es db run req d faults fresh ih =>
      rcases Event.recorded st ⟨req, d, faults, db, (serve st d faults req db).1⟩ h with h | h
      · obtain ⟨e, he, h⟩ := ih h
        exact ⟨e, List.mem_cons_of_mem _ he, h⟩
      · exact ⟨_, List.mem_cons_self, h⟩

end approvals

/-! ### Refresh tokens -/

/-- After the events `es`, the request of `e` descends from the issuance `i`: it exchanges the
code of `i`, or a refresh token from the answer to an earlier request that descends from `i`. -/
inductive Descends {st : AppState} (i : Issuance st) : List Event → Event → Prop where
  | exchange {es : List Event} (hi : i.event ∈ es) (e : Event) (headers : HeaderMap)
      (pairs : List (String × String)) (hreq : e.req = .token headers (some pairs)) (params : Params)
      (hp : Params.fromPairs pairs = .ok params)
      (hg : params.get "grant_type" = some "authorization_code") (code : String)
      (hcode : params.get "code" = some code) (hhash : st.hashToken code = st.hashToken i.code) :
      Descends i es e
  | refresh {older : List Event} (e' : Event) (h : Descends i older e') (mid : List Event)
      (tokens : TokenResponse) (hbody : e'.response.body = .tokens tokens) (issued : String)
      (hissued : tokens.refreshToken = some issued) (e : Event) (headers : HeaderMap)
      (pairs : List (String × String)) (hreq : e.req = .token headers (some pairs)) (params : Params)
      (hp : Params.fromPairs pairs = .ok params)
      (hg : params.get "grant_type" = some "refresh_token") (token : String)
      (htoken : params.get "refresh_token" = some token)
      (hhash : st.hashToken token = st.hashToken issued) : Descends i (mid ++ e' :: older) e

/-- The token carries the grant of the code. -/
structure GrantOf (c : AuthorizationCode) (t : RefreshToken) : Prop where
  clientId : t.clientId = c.clientId
  userId : t.userId = c.userId
  scope : t.scope = c.scope
  authTime : t.authTime = c.authTime

/-- The token was issued in the answer to a request that descends from `i`. -/
inductive TokenOrigin {st : AppState} (i : Issuance st) : List Event → RefreshToken → Prop where
  | intro {older : List Event} (mid : List Event) (e : Event) (h : Descends i older e)
      (tokens : TokenResponse) (hbody : e.response.body = .tokens tokens)
      (hissued : tokens.refreshToken = some (generateToken (e.draws.secret 0))) (t : RefreshToken)
      (hhash : t.tokenHash = st.hashToken (generateToken (e.draws.secret 0)))
      (hgrant : GrantOf i.row t) : TokenOrigin i (mid ++ e :: older) t

/-- The token, perhaps rotated or revoked since. -/
structure SameToken (t t' : RefreshToken) : Prop where
  tokenHash : t'.tokenHash = t.tokenHash
  clientId : t'.clientId = t.clientId
  userId : t'.userId = t.userId
  scope : t'.scope = t.scope
  authTime : t'.authTime = t.authTime

/-- The request of the event issued the token. -/
inductive NewToken (st : AppState) (e : Event) (t : RefreshToken) : Prop where
  | first (headers : HeaderMap) (pairs : List (String × String))
      (hreq : e.req = .token headers (some pairs)) (params : Params)
      (hp : Params.fromPairs pairs = .ok params)
      (hg : params.get "grant_type" = some "authorization_code") (code : String)
      (hcode : params.get "code" = some code) (client : OAuthClient) (record : AuthorizationCode)
      (hmem : record ∈ e.before.codes) (hhash : record.codeHash = st.hashToken code)
      (hclient : record.clientId = client.id)
      (ht : SameToken (firstToken st e.draws client record) t) (tokens : TokenResponse) (hbody : (e.answer st).body = .tokens tokens)
      (hissued : tokens.refreshToken = some (generateToken (e.draws.secret 0)))
  | next (headers : HeaderMap) (pairs : List (String × String))
      (hreq : e.req = .token headers (some pairs)) (params : Params)
      (hp : Params.fromPairs pairs = .ok params)
      (hg : params.get "grant_type" = some "refresh_token") (token : String)
      (htoken : params.get "refresh_token" = some token) (client : OAuthClient)
      (record : RefreshToken) (hmem : record ∈ e.before.refreshTokens)
      (hhash : record.tokenHash = st.hashToken token) (hclient : record.clientId = client.id)
      (ht : SameToken (nextToken st e.draws client record) t) (tokens : TokenResponse)
      (hbody : (e.answer st).body = .tokens tokens)
      (hissued : tokens.refreshToken = some (generateToken (e.draws.secret 0)))

section tokens

variable {st : AppState} {es : List Event} {d : Draws} {db db' : Db} {e : Event} {i : Issuance st}
  {t t' : RefreshToken}

theorem Descends.cons (h : Descends i es e) (x : Event) : Descends i (x :: es) e := by
  cases h with
  | exchange hi e headers pairs hreq params hp hg code hcode hhash =>
      exact .exchange (List.mem_cons_of_mem _ hi) e headers pairs hreq params hp hg code hcode hhash
  | refresh e' h mid tokens hbody issued hissued e headers pairs hreq params hp hg token htoken hhash =>
      exact .refresh e' h (x :: mid) tokens hbody issued hissued e headers pairs hreq params hp hg token
        htoken hhash

theorem TokenOrigin.cons (h : TokenOrigin i es t) (x : Event) : TokenOrigin i (x :: es) t := by
  cases h with
  | intro mid e h tokens hbody hissued t hhash hgrant =>
      exact .intro (x :: mid) e h tokens hbody hissued t hhash hgrant

theorem TokenOrigin.same (h : TokenOrigin i es t) (hs : SameToken t t') : TokenOrigin i es t' := by
  cases h with
  | intro mid e h tokens hbody hissued t hhash hgrant =>
      exact .intro mid e h tokens hbody hissued t' (hs.tokenHash.trans hhash)
        ⟨hs.clientId.trans hgrant.clientId, hs.userId.trans hgrant.userId,
          hs.scope.trans hgrant.scope, hs.authTime.trans hgrant.authTime⟩

theorem TokenOrigin.grantOf (h : TokenOrigin i es t) : GrantOf i.row t := by
  cases h with
  | intro mid e h tokens hbody hissued t hhash hgrant => exact hgrant

theorem SameToken.refl (t : RefreshToken) : SameToken t t := ⟨rfl, rfl, rfl, rfl, rfl⟩

theorem SameToken.revokeIf (p : RefreshToken → Bool) (now : Instant) (t : RefreshToken) :
    SameToken t (t.revokeIf p now) := by
  rw [RefreshToken.revokeIf]
  split_ifs <;> exact ⟨rfl, rfl, rfl, rfl, rfl⟩

theorem SameToken.rotate (id next : Uuid) (t : RefreshToken) : SameToken t (t.rotate id next) := by
  rw [RefreshToken.rotate]
  split_ifs <;> exact ⟨rfl, rfl, rfl, rfl, rfl⟩

/-- The registries add no token. -/
theorem Registry.token_row (h : Registry d db db') :
    ∀ t' ∈ db'.refreshTokens, ∃ t ∈ db.refreshTokens, SameToken t t' := by
  induction h with
  | refl => exact fun t' ht' => ⟨t', ht', .refl t'⟩
  | tail _ hstep ih =>
      obtain ⟨q, hq, rfl⟩ := hstep
      intro t' ht'
      rcases hq.rows _ with ⟨-, htokens⟩ | ⟨id, hd⟩
      · rw [htokens] at ht'
        exact ih t' ht'
      · rw [(deleteClient_rows hd).2] at ht'
        obtain ⟨u, hu, rfl⟩ := List.mem_map.1 ht'
        obtain ⟨t, ht, hs⟩ := ih u (List.mem_filter.1 hu).1
        refine ⟨t, ht, ?_⟩
        split_ifs
        · exact ⟨hs.tokenHash, hs.clientId, hs.userId, hs.scope, hs.authTime⟩
        · exact hs

theorem checkCodeBindings_ok_iff {cr : Crates} {record : AuthorizationCode} {client : OAuthClient}
    {uri verifier : String} {now : Instant} :
    checkCodeBindings cr record client uri verifier now = .ok () ↔
      record.clientId = client.id ∧ now < record.expiresAt ∧ record.redirectUri = uri ∧
        record.codeChallengeMethod = Pkce.s256 ∧
        Pkce.verifyS256 cr verifier record.codeChallenge = true := by
  rw [checkCodeBindings]
  split_ifs with h1 h2 h3 h4
  · simp [h1]
  · simp [not_lt.2 h2]
  · simp [h3]
  · simp only [false_iff]
    rintro ⟨-, -, -, hmethod, hverify⟩
    simp [hmethod, hverify] at h4
  · simp only [true_iff]
    simp only [not_or, not_not, Bool.not_eq_true', Bool.not_eq_false, not_le] at h1 h2 h3 h4
    exact ⟨h1, h2, h3, h4⟩

/-- **Where a refresh token comes from.** -/
theorem Event.token_row (st : AppState) (e : Event) : ∀ t' ∈ (e.after st).refreshTokens,
    (∃ t ∈ e.before.refreshTokens, SameToken t t') ∨ NewToken st e t' := by
  have heffect := e.effect st
  generalize e.after st = db' at heffect ⊢
  generalize hreq : e.req = req at heffect
  generalize hanswer : e.answer st = answer at heffect
  have hkept (h : db' .refreshTokens = e.before .refreshTokens) (t' : RefreshToken)
      (ht' : t' ∈ db'.refreshTokens) :
      (∃ t ∈ e.before.refreshTokens, SameToken t t') ∨ NewToken st e t' := by
    rw [Db.refreshTokens, h] at ht'
    exact .inl ⟨t', ht', .refl t'⟩
  have hrevoked (p : RefreshToken → Bool)
      (h : db'.refreshTokens = e.before.refreshTokens.map (·.revokeIf p e.draws.now))
      (t' : RefreshToken) (ht' : t' ∈ db'.refreshTokens) :
      (∃ t ∈ e.before.refreshTokens, SameToken t t') ∨ NewToken st e t' := by
    rw [h] at ht'
    obtain ⟨t, ht, rfl⟩ := List.mem_map.1 ht'
    exact .inl ⟨t, ht, .revokeIf p _ t⟩
  have hclaim (codeHash : String) :
      e.before.after (.codesClaim codeHash e.draws.now) .refreshTokens = e.before .refreshTokens :=
    e.before.after_of_writes (by simp [Stmt.writes])
  cases heffect with
  | authorize headers pairs r db' h => exact hkept (h.frame (by decide))
  | consent headers pairs r db' h => exact hkept (h.frame (by decide) (by decide))
  | notAForm => exact hkept rfl
  | account req r db' h => exact hkept (h.frame (by decide) (by decide))
  | registry req hreq r db' h => exact fun t' ht' => .inl (h.token_row t' ht')
  | revoke headers pairs r db' h =>
      cases h with
      | revoked params client hl token htoken record => exact hrevoked _ (Db.after_tokensRevokeFamily _ _ _)
      | _ => exact hkept rfl
  | token headers pairs r db' h =>
      cases h with
      | failed => exact hkept rfl
      | refused => exact hkept rfl
      | code params client hl hg r db' h =>
          cases h with
          | replayed => exact hrevoked _ (Db.after_tokensRevokeByAuthorizationCode _ _ _)
          | rejected => exact hkept (hclaim _)
          | redeemed => exact hkept (hclaim _)
          | redeemedOffline hp record hu hb scope hscope hoffline response hsigned hinsert =>
              intro t' ht'
              rw [Db.after_tokensInsert _ hinsert] at ht'
              rcases List.mem_append.1 ht' with ht' | ht'
              · rw [Db.refreshTokens, hclaim] at ht'
                exact .inl ⟨t', ht', .refl t'⟩
              · rw [List.mem_singleton.1 ht']
                exact .inr (.first headers pairs hreq params hl.params_ok (GrantType.parse_eq_ok.1 hg) _
                  hp.code client record hu.mem hu.hash (checkCodeBindings_ok_iff.1 hb).1 (.refl _)
                  { response with refreshToken := some (generateToken (e.draws.secret 0)) }
                  (by rw [hanswer]; rfl) rfl)
          | _ => exact hkept rfl
      | refresh params client hl hg r db' h =>
          cases h with
          | replayed => exact hrevoked _ (Db.after_tokensRevokeFamily _ _ _)
          | refreshed hraw record hf hok requested hrequested granted scope hgranted hscope response
              hsigned hinsert =>
              intro t' ht'
              rw [Db.after_tokensMarkRotated, Db.after_tokensInsert _ hinsert] at ht'
              obtain ⟨t, ht, rfl⟩ := List.mem_map.1 ht'
              rcases List.mem_append.1 ht with ht | ht
              · exact .inl ⟨t, ht, .rotate _ _ t⟩
              · rw [List.mem_singleton.1 ht]
                exact .inr (.next headers pairs hreq params hl.params_ok (GrantType.parse_eq_ok.1 hg) _
                  hraw client record hf.mem hf.hash (checkUsable_ok hok).1 (.rotate _ _ _)
                  { response with refreshToken := some (generateToken (e.draws.secret 0)) }
                  (by rw [hanswer]; rfl) rfl)
          | _ => exact hkept rfl

/-- Presenting a token of `i` descends from `i`. -/
theorem TokenOrigin.descends (h : TokenOrigin i es t) {headers : HeaderMap}
    {pairs : List (String × String)} (hreq : e.req = .token headers (some pairs)) {params : Params}
    (hp : Params.fromPairs pairs = .ok params) (hg : params.get "grant_type" = some "refresh_token")
    {token : String} (htoken : params.get "refresh_token" = some token)
    (hpresented : t.tokenHash = st.hashToken token) : Descends i es e := by
  cases h with
  | intro mid e' h tokens hbody hissued t hhash hgrant =>
      exact .refresh e' h mid tokens hbody _ hissued e headers pairs hreq params hp hg token htoken
        (hpresented.symm.trans hhash)

/-- The root lies before. -/
theorem Descends.mem (h : Descends i es e) : i.event ∈ es := by
  induction h with
  | exchange hi => exact hi
  | refresh e' h mid tokens hbody issued hissued e headers pairs hreq params hp hg token htoken hhash
      ih => exact List.mem_append_right _ (List.mem_cons_of_mem _ ih)

/-- **Every refresh token has an issuance at its root.** -/
theorem Run.token_origin (run : Run st es db) :
    ∀ t ∈ db.refreshTokens, ∃ i : Issuance st, TokenOrigin i es t := by
  induction run with
  | init => exact fun t ht => absurd ht List.not_mem_nil
  | @step es db run req d faults fresh ih =>
      set e : Event := ⟨req, d, faults, db, (serve st d faults req db).1⟩ with he
      intro t' ht'
      rcases e.token_row st t' ht' with ⟨t, ht, hsame⟩ | hnew
      · obtain ⟨i, hi⟩ := ih t ht
        exact ⟨i, (hi.same hsame).cons e⟩
      · cases hnew with
        | first headers pairs hreq params hp hg code hcode client record hmem hhash hclient hsame tokens
            hbody hissued =>
            obtain ⟨i, hi, hrow⟩ := run.code_origin record hmem
            have hcodeHash : record.codeHash = st.hashToken i.code := by rw [hrow]; rfl
            have hdescends : Descends i es e :=
              .exchange hi e headers pairs hreq params hp hg code hcode (hhash.symm.trans hcodeHash)
            refine ⟨i, .intro [] e hdescends tokens hbody hissued t' hsame.tokenHash ?_⟩
            refine ⟨hsame.clientId.trans ?_, hsame.userId.trans ?_, hsame.scope.trans ?_,
              hsame.authTime.trans ?_⟩
            · show client.id = _
              rw [← hclient, hrow]
            all_goals
              show _ = _
              simp only [firstToken, Refresh.newRecord]
              rw [hrow]
        | next headers pairs hreq params hp hg token htoken client record hmem hhash hclient hsame tokens
            hbody hissued =>
            obtain ⟨i, hi⟩ := ih record hmem
            have hdescends : Descends i es e := hi.descends hreq hp hg htoken hhash
            refine ⟨i, .intro [] e hdescends tokens hbody hissued t' hsame.tokenHash ?_⟩
            have hgrant := hi.grantOf
            exact ⟨hsame.clientId.trans (hclient.symm.trans hgrant.clientId),
              hsame.userId.trans hgrant.userId, hsame.scope.trans hgrant.scope,
              hsame.authTime.trans hgrant.authTime⟩

end tokens

/-! ### Token responses -/

/-- The authority of an issuance for a client: who gave it, and what it covers. -/
structure Authority {st : AppState} (earlier : List Event) (client : OAuthClient) (i : Issuance st) :
    Prop where
  sameClient : i.validated.client.id = client.id
  registered : i.validated.client ∈ i.event.before.clients
  allowed : ∀ x ∈ i.validated.scope, x ∈ i.validated.client.allowedScopes
  history : ∃ mid older, earlier = mid ++ i.event :: older ∧
    (∃ a ∈ older, Authenticates st a i.session) ∧
    ∀ x ∈ i.validated.scope, ∃ a ∈ i.event :: older, Approves st a i.user.id client.id x

section responses

variable {st : AppState} {es earlier later : List Event} {db : Db} {e : Event} {client : OAuthClient}
  {i : Issuance st}

theorem Issuance.storedScope_row (i : Issuance st) :
    storedScope i.row.scope = .ok i.validated.scope := by
  obtain ⟨-, -, ⟨raw, -, hparse⟩, -⟩ := checkRequest_ok i.valid.checked
  exact mapError_eq_ok.2 (ScopeSet.parse_toString hparse)

/-- An issuance of a run was authorized by its user. -/
theorem Run.authority (run : Run st es db) (hi : i.event ∈ es)
    (hclient : i.validated.client.id = client.id) : Authority es client i := by
  obtain ⟨mid, older, rfl⟩ := List.append_of_mem hi
  obtain ⟨db', run'⟩ := run.upTo
  have hbefore := run'.cons.1
  obtain ⟨-, -, -, hallowed, -⟩ := checkRequest_ok i.valid.checked
  refine ⟨hclient, i.valid.redirectable.mem, hallowed, mid, older, rfl,
    hbefore.session_origin _ i.signedIn.mem, fun x hx => ?_⟩
  rcases i.request with ⟨-, granted, hgranted, hsub⟩ | happroval
  · have hrec := Db.recorded_of_active hgranted (ScopeSet.isSubsetOf_iff.1 hsub x hx)
    obtain ⟨a, ha, happroves⟩ := hbefore.approved hrec
    rw [hclient] at happroves
    exact ⟨a, List.mem_cons_of_mem _ ha, happroves⟩
  · exact ⟨i.event, List.mem_cons_self, .intro i.headers i.pairs i.params i.session i.user i.validated
      happroval rfl hclient hx⟩

theorem narrowedScope_ok {granted scope : ScopeSet} {raw : Option String} {requested : Option ScopeSet}
    (hrequested : requestedScope raw = .ok requested)
    (hscope : narrowedScope granted requested = .ok scope) :
    (raw = none → scope = granted) ∧ ∀ x ∈ scope, x ∈ granted := by
  cases requested with
  | none =>
      cases hscope
      exact ⟨fun _ => rfl, fun x hx => hx⟩
  | some requested =>
      rw [narrowedScope] at hscope
      split_ifs at hscope with hsub
      cases hscope
      refine ⟨?_, ScopeSet.isSubsetOf_iff.1 (by simpa using hsub)⟩
      rintro rfl
      cases hrequested

end responses

namespace Sample

/-- The tokens of the first client. -/
def tokens : TokenResponse where
  accessToken := "header.payload.signature"
  tokenType := "Bearer"
  expiresIn := 900
  scope := "offline_access openid"
  refreshToken := some "Dw8PDw8PDw8PDw8PDw8PDw8PDw8PDw8PDw8PDw8PDw8"
  idToken := some "header.payload.signature"

/-- The tokens of a response, if it has some. -/
def tokens? (r : Response) : Option TokenResponse :=
  match r.body with
  | .tokens tokens => some tokens
  | _ => none

theorem tokens?_eq_some {r : Response} {t : TokenResponse} (h : tokens? r = some t) :
    r.body = .tokens t := by
  obtain ⟨status, body, cookies⟩ := r
  cases body <;> cases h
  rfl

/-- The events before the exchange. -/
def approvals : List Event :=
  event 4 (.consent signedInBrowser consentForm) registered :: registrations

theorem run_exchanged :
    Run state ([] ++ event 5 (exchange clientA.clientId) issued :: approvals) exchanged :=
  served_exchanged.run

end Sample

end SharpOauth
