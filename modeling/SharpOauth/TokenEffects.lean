import SharpOauth.Tables

/-! # What token and revocation requests do

One inductive relation for each exchange lists everything it can answer and do to the tables,
with the conditions under which it does (`CodeEffect`, `RefreshEffect`, `RevokeEffect`); one
theorem for each says that this is all (`exchangeAuthorizationCode_effect`, …).  What is
proved about these requests is proved by cases on the relations, without looking at the
handlers again.

`flaky` stands for "some call to the database failed". -/

namespace SharpOauth

open Handler (begin commit)
open Refresh (Unusable)

namespace Token

/-- A complete presentation of a code. -/
structure Presents (params : Params) (code redirectUri codeVerifier : String) : Prop where
  code : params.get "code" = some code
  redirectUri : params.get "redirect_uri" = some redirectUri
  codeVerifier : params.get "code_verifier" = some codeVerifier

/-- An unused code with the given hash. -/
structure Unused (db : Db) (codeHash : String) (record : AuthorizationCode) : Prop where
  mem : record ∈ db.codes
  hash : record.codeHash = codeHash
  unused : record.usedAt = none

/-- The first refresh token of a code. -/
def firstToken (st : AppState) (d : Draws) (client : OAuthClient) (record : AuthorizationCode) :
    RefreshToken :=
  Refresh.newRecord st.toCrates d
    { familyId := d.uuid 1
      authorizationCodeId := some record.id
      clientId := client.id
      userId := record.userId
      scope := record.scope
      authTime := record.authTime }

/-- The successor of a refresh token. -/
def nextToken (st : AppState) (d : Draws) (client : OAuthClient) (record : RefreshToken) :
    RefreshToken :=
  Refresh.newRecord st.toCrates d
    { familyId := record.familyId
      authorizationCodeId := record.authorizationCodeId
      clientId := client.id
      userId := record.userId
      scope := record.scope
      authTime := record.authTime }

section effects

variable (st : AppState) (d : Draws) (client : OAuthClient) (params : Params) (flaky : Prop) (db : Db)

/-- What an exchange of an authorization code answers and does. -/
inductive CodeEffect : Except AppError TokenResponse → Db → Prop where
  | incomplete (e : AppError) (h : ∀ code uri verifier, ¬Presents params code uri verifier) :
      CodeEffect (.error e) db
  | failed (err : SqlError) (h : flaky) : CodeEffect (.error (.database err)) db
  | unknown {code uri verifier : String} (hp : Presents params code uri verifier)
      (h : ∀ c ∈ db.codes, c.codeHash ≠ st.hashToken code) :
      CodeEffect (.error (.invalidGrant "authorization code is invalid")) db
  | replayed {code uri verifier : String} (hp : Presents params code uri verifier)
      (used : AuthorizationCode) (hmem : used ∈ db.codes)
      (hhash : used.codeHash = st.hashToken code)
      (h : ∀ c ∈ db.codes, c.codeHash = st.hashToken code → c.usedAt ≠ none) :
      CodeEffect (.error (.invalidGrant "authorization code has already been used"))
        (db.after (.tokensRevokeByAuthorizationCode used.id d.now))
  | rejected {code uri verifier : String} (hp : Presents params code uri verifier)
      (record : AuthorizationCode) (hu : Unused db (st.hashToken code) record) (e : AppError)
      (h : checkCodeBindings st.toCrates record client uri verifier d.now = .error e) :
      CodeEffect (.error e) (db.after (.codesClaim (st.hashToken code) d.now))
  | unsigned {code uri verifier : String} (hp : Presents params code uri verifier)
      (record : AuthorizationCode) (hu : Unused db (st.hashToken code) record)
      (hb : checkCodeBindings st.toCrates record client uri verifier d.now = .ok ()) (e : AppError)
      (h : ∀ scope response, storedScope record.scope = .ok scope →
        signedTokens st d client record.userId scope record.authTime record.nonce ≠ .ok response) :
      CodeEffect (.error e) db
  | duplicate {code uri verifier : String} (hp : Presents params code uri verifier)
      (record : AuthorizationCode) (hu : Unused db (st.hashToken code) record)
      (hb : checkCodeBindings st.toCrates record client uri verifier d.now = .ok ()) (e : AppError)
      (t : RefreshToken) (ht : t ∈ db.refreshTokens)
      (h : (firstToken st d client record).id = t.id ∨
        (firstToken st d client record).tokenHash = t.tokenHash) :
      CodeEffect (.error e) db
  | redeemed {code uri verifier : String} (hp : Presents params code uri verifier)
      (record : AuthorizationCode) (hu : Unused db (st.hashToken code) record)
      (hb : checkCodeBindings st.toCrates record client uri verifier d.now = .ok ())
      (scope : ScopeSet) (hscope : storedScope record.scope = .ok scope)
      (hoffline : ScopeSet.offlineAccess ∉ scope) (response : TokenResponse)
      (hsigned : signedTokens st d client record.userId scope record.authTime record.nonce =
        .ok response) :
      CodeEffect (.ok response) (db.after (.codesClaim (st.hashToken code) d.now))
  | redeemedOffline {code uri verifier : String} (hp : Presents params code uri verifier)
      (record : AuthorizationCode) (hu : Unused db (st.hashToken code) record)
      (hb : checkCodeBindings st.toCrates record client uri verifier d.now = .ok ())
      (scope : ScopeSet) (hscope : storedScope record.scope = .ok scope)
      (hoffline : ScopeSet.offlineAccess ∈ scope) (response : TokenResponse)
      (hsigned : signedTokens st d client record.userId scope record.authTime record.nonce =
        .ok response)
      (hinsert : ((db.after (.codesClaim (st.hashToken code) d.now)).result
        (.tokensInsert (firstToken st d client record))) = .ok ()) :
      CodeEffect (.ok { response with refreshToken := some (generateToken (d.secret 0)) })
        ((db.after (.codesClaim (st.hashToken code) d.now)).after
          (.tokensInsert (firstToken st d client record)))

/-- A refresh token with the given hash. -/
structure Found (db : Db) (tokenHash : String) (record : RefreshToken) : Prop where
  mem : record ∈ db.refreshTokens
  hash : record.tokenHash = tokenHash

/-- What an exchange of a refresh token answers and does. -/
inductive RefreshEffect : Except AppError TokenResponse → Db → Prop where
  | incomplete (e : AppError) (h : ∀ raw requested, params.get "refresh_token" = some raw →
      requestedScope (params.get "scope") ≠ .ok requested) : RefreshEffect (.error e) db
  | failed (err : SqlError) (h : flaky) : RefreshEffect (.error (.database err)) db
  | unknown {raw : String} (hraw : params.get "refresh_token" = some raw)
      (h : ∀ t ∈ db.refreshTokens, t.tokenHash ≠ st.hashToken raw) :
      RefreshEffect (.error (.invalidGrant "refresh token is invalid")) db
  | unusable {raw : String} (hraw : params.get "refresh_token" = some raw) (record : RefreshToken)
      (hf : Found db (st.hashToken raw) record) (u : Unusable) (hu : u ≠ .alreadyRotated)
      (h : record.checkUsable client.id d.now = .error u) (e : AppError) :
      RefreshEffect (.error e) db
  | replayed {raw : String} (hraw : params.get "refresh_token" = some raw)
      (requested : Option ScopeSet) (hrequested : requestedScope (params.get "scope") = .ok requested)
      (record : RefreshToken) (hf : Found db (st.hashToken raw) record)
      (h : record.checkUsable client.id d.now = .error .alreadyRotated) :
      RefreshEffect (.error (.invalidGrant "refresh token has already been used"))
        (db.after (.tokensRevokeFamily record.familyId d.now))
  | refused {raw : String} (hraw : params.get "refresh_token" = some raw) (record : RefreshToken)
      (hf : Found db (st.hashToken raw) record)
      (hok : record.checkUsable client.id d.now = .ok ()) (e : AppError)
      (h : ∀ requested granted scope response,
        requestedScope (params.get "scope") = .ok requested → storedScope record.scope = .ok granted →
        narrowedScope granted requested = .ok scope →
        signedTokens st d client record.userId scope record.authTime none ≠ .ok response) :
      RefreshEffect (.error e) db
  | duplicate {raw : String} (hraw : params.get "refresh_token" = some raw) (record : RefreshToken)
      (hf : Found db (st.hashToken raw) record)
      (hok : record.checkUsable client.id d.now = .ok ()) (e : AppError)
      (t : RefreshToken) (ht : t ∈ db.refreshTokens)
      (h : (nextToken st d client record).id = t.id ∨
        (nextToken st d client record).tokenHash = t.tokenHash) :
      RefreshEffect (.error e) db
  | refreshed {raw : String} (hraw : params.get "refresh_token" = some raw) (record : RefreshToken)
      (hf : Found db (st.hashToken raw) record)
      (hok : record.checkUsable client.id d.now = .ok ()) (requested : Option ScopeSet)
      (hrequested : requestedScope (params.get "scope") = .ok requested) (granted scope : ScopeSet)
      (hgranted : storedScope record.scope = .ok granted)
      (hscope : narrowedScope granted requested = .ok scope) (response : TokenResponse)
      (hsigned : signedTokens st d client record.userId scope record.authTime none = .ok response)
      (hinsert : db.result (.tokensInsert (nextToken st d client record)) = .ok ()) :
      RefreshEffect (.ok { response with refreshToken := some (generateToken (d.secret 0)) })
        ((db.after (.tokensInsert (nextToken st d client record))).after
          (.tokensMarkRotated record.id (nextToken st d client record).id))

end effects

variable {st : AppState} {d : Draws} {client : OAuthClient} {params : Params} {flaky : Prop} {db : Db}

theorem claimed_eq_some {codeHash : String} {now : Instant} {record : AuthorizationCode}
    (h : db.result (.codesClaim codeHash now) = .ok (some record)) :
    ∃ c, Unused db codeHash c ∧ record = { c with usedAt := some now } := by
  have h' := Except.ok.inj ((db.result_codesClaim codeHash now).symm.trans h)
  obtain ⟨c, hc, rfl⟩ := List.mem_map.1 (List.mem_of_mem_head? h')
  obtain ⟨hmem, hc⟩ := List.mem_filter.1 hc
  simp only [decide_eq_true_eq] at hc
  exact ⟨c, ⟨hmem, hc.1, hc.2⟩, rfl⟩

theorem claimed_eq_none {codeHash : String} {now : Instant}
    (h : db.result (.codesClaim codeHash now) = .ok none) :
    ∀ c ∈ db.codes, c.codeHash = codeHash → c.usedAt ≠ none := by
  have h' := Except.ok.inj ((db.result_codesClaim codeHash now).symm.trans h)
  rw [List.head?_eq_none_iff, List.map_eq_nil_iff, List.filter_eq_nil_iff] at h'
  intro c hc hhash hused
  exact h' c hc (by simp [hhash, hused])

/-- What the signed part of a token response says. -/
structure Signed (st : AppState) (d : Draws) (client : OAuthClient) (userId : Uuid)
    (scope : ScopeSet) (authTime : Instant) (nonce : Option String) (r : TokenResponse) : Prop where
  accessToken : Access.issue st
    (.new st.issuer userId client.clientId scope authTime d.now (d.uuid 0)) = .ok r.accessToken
  idToken : ScopeSet.openid ∈ scope → ∃ token, r.idToken = some token ∧
    IdToken.issue st (.new st.issuer userId client.clientId authTime nonce d.now) = .ok token
  noIdToken : ScopeSet.openid ∉ scope → r.idToken = none
  scope : r.scope = scope.toString

theorem signedTokens_ok {userId : Uuid} {scope : ScopeSet} {authTime : Instant}
    {nonce : Option String} {r : TokenResponse}
    (h : signedTokens st d client userId scope authTime nonce = .ok r) :
    Signed st d client userId scope authTime nonce r ∧ r.refreshToken = none := by
  obtain ⟨accessToken, haccess, h⟩ := Check.bind_eq_ok.1 h
  by_cases hopenid : ScopeSet.openid ∈ scope
  · have hc : scope.contains ScopeSet.openid = true := by simpa [ScopeSet.contains] using hopenid
    rw [if_pos hc] at h
    obtain ⟨idToken, hid, h⟩ := Check.bind_eq_ok.1 h
    cases h
    cases hissue : IdToken.issue st (.new st.issuer userId client.clientId authTime nonce d.now) with
    | error e => rw [hissue] at hid; cases hid
    | ok token =>
        rw [hissue] at hid
        cases hid
        exact ⟨⟨haccess, fun _ => ⟨token, rfl, hissue⟩, fun hn => absurd hopenid hn, rfl⟩, rfl⟩
  · have hc : ¬scope.contains ScopeSet.openid = true := by simpa [ScopeSet.contains] using hopenid
    rw [if_neg hc] at h
    obtain ⟨idToken, hid, h⟩ := Check.bind_eq_ok.1 h
    cases hid
    cases h
    exact ⟨⟨haccess, fun hn => absurd hn hopenid, fun _ => rfl, rfl⟩, rfl⟩

theorem found_code {codeHash : String} {used : AuthorizationCode}
    (h : db.result (.codesFindByHash codeHash) = .ok (some used)) :
    used ∈ db.codes ∧ used.codeHash = codeHash := by
  have h' := Except.ok.inj h
  exact ⟨List.mem_of_find?_eq_some h', by simpa using List.find?_some h'⟩

theorem not_found_code {codeHash : String} (h : db.result (.codesFindByHash codeHash) = .ok none) :
    ∀ c ∈ db.codes, c.codeHash ≠ codeHash := by
  simpa using List.find?_eq_none.1 (Except.ok.inj h)

/-- **All that an exchange of an authorization code can do.** -/
theorem exchangeAuthorizationCode_wp :
    (exchangeAuthorizationCode st d client params).wp flaky
      (fun r c => CodeEffect st d client params flaky db r c.db) { db } := by
  simp only [exchangeAuthorizationCode, Prog.bind_eq, Prog.pure_eq, Prog.wp_okOr]
  refine ⟨fun code hcode => ⟨fun uri huri => ⟨fun verifier hverifier => ?_,
    fun h => .incomplete _ fun _ _ _ hp => nomatch h.symm.trans hp.codeVerifier⟩,
    fun h => .incomplete _ fun _ _ _ hp => nomatch h.symm.trans hp.redirectUri⟩,
    fun h => .incomplete _ fun _ _ _ hp => nomatch h.symm.trans hp.code⟩
  have hp : Presents params code uri verifier := ⟨hcode, huri, hverifier⟩
  rw [wp_begin]
  refine ⟨fun h => .failed _ h, ?_⟩
  rw [wp_query_tx]
  refine ⟨fun h => .failed _ h, fun claimed hclaimed => ?_, fun e he => nomatch he⟩
  cases claimed with
  | none =>
      -- No unused code has the hash, so claiming it changed nothing.
      have hnone := claimed_eq_none hclaimed
      rw [db.after_codesClaim_none hnone]
      dsimp only
      rw [wp_query_tx]
      refine ⟨fun h => .failed _ h, fun used hused => ?_, fun e he => nomatch he⟩
      cases used with
      | none => exact .unknown hp (not_found_code hused)
      | some used =>
          obtain ⟨hmem, hhash⟩ := found_code hused
          rw [db.after_of_reads rfl]
          dsimp only
          rw [wp_query_tx]
          refine ⟨fun h => .failed _ h, fun _ _ => ?_, fun e he => nomatch he⟩
          rw [wp_commit]
          exact ⟨fun h => .failed _ h, .replayed hp used hmem hhash hnone⟩
  | some record =>
      obtain ⟨c, hu, rfl⟩ := claimed_eq_some hclaimed
      have hb : checkCodeBindings st.toCrates { c with usedAt := some d.now } client uri verifier
        d.now = checkCodeBindings st.toCrates c client uri verifier d.now := rfl
      simp only [hb]
      cases hb : checkCodeBindings st.toCrates c client uri verifier d.now with
      | error e =>
          rw [wp_commit]
          exact ⟨fun h => .failed _ h, .rejected hp c hu e hb⟩
      | ok u =>
          simp only [Prog.wp_ofExcept]
          refine ⟨fun scope hscope => ⟨fun response hsigned => ?_, fun e he => ?_⟩, fun e he => ?_⟩
          · split_ifs with hoffline
            · simp only [Refresh.issue, Prog.bind_eq, Prog.pure_eq, Prog.bind_assoc, Prog.ret_bind]
              rw [wp_query_tx]
              refine ⟨fun h => .failed _ h, fun _ hinsert => ?_, fun e he => ?_⟩
              · rw [wp_commit]
                exact ⟨fun h => .failed _ h, .redeemedOffline hp c hu hb scope hscope
                  (by simpa [ScopeSet.contains] using hoffline) response hsigned hinsert⟩
              · obtain ⟨t, ht, h⟩ := Db.result_tokensInsert_error _ he
                exact .duplicate hp c hu hb _ t ht h
            · rw [Prog.ret_bind, wp_commit]
              have hnone := (signedTokens_ok hsigned).2
              have hresponse : { response with refreshToken := none } = response := by
                cases response
                simpa using hnone.symm
              refine ⟨fun h => .failed _ h, ?_⟩
              rw [Prog.wp_ret, hresponse]
              exact .redeemed hp c hu hb scope hscope (by simpa [ScopeSet.contains] using hoffline)
                response hsigned
          · refine .unsigned hp c hu hb _ fun scope' response' hscope' hsigned' => ?_
            cases hscope.symm.trans hscope'
            exact nomatch he.symm.trans hsigned'
          · exact .unsigned hp c hu hb _ fun scope' response' hscope' _ => nomatch he.symm.trans hscope'

/-! ### Refresh tokens -/

theorem found_token {tokenHash : String} {record : RefreshToken}
    (h : db.result (.tokensFindByHash tokenHash) = .ok (some record)) : Found db tokenHash record := by
  have h' := Except.ok.inj h
  exact ⟨List.mem_of_find?_eq_some h', by simpa using List.find?_some h'⟩

theorem not_found_token {tokenHash : String}
    (h : db.result (.tokensFindByHash tokenHash) = .ok none) :
    ∀ t ∈ db.refreshTokens, t.tokenHash ≠ tokenHash := by
  simpa using List.find?_eq_none.1 (Except.ok.inj h)

theorem locked_token {tokenHash : String} {record : RefreshToken}
    (h : db.result (.tokensFindByHashForUpdate tokenHash) = .ok (some record)) :
    Found db tokenHash record := by
  obtain ⟨hmem, hhash⟩ := List.mem_filter.1 (List.mem_of_mem_head? (Except.ok.inj h))
  exact ⟨hmem, by simpa using hhash⟩

theorem not_locked_token {tokenHash : String}
    (h : db.result (.tokensFindByHashForUpdate tokenHash) = .ok none) :
    ∀ t ∈ db.refreshTokens, t.tokenHash ≠ tokenHash := by
  have h' := List.filter_eq_nil_iff.1 (List.head?_eq_none_iff.1 (Except.ok.inj h))
  simpa using h'

/-- **All that an exchange of a refresh token can do.** -/
theorem exchangeRefreshToken_wp :
    (exchangeRefreshToken st d client params).wp flaky
      (fun r c => RefreshEffect st d client params flaky db r c.db) { db } := by
  simp only [exchangeRefreshToken, Prog.bind_eq, Prog.pure_eq, Prog.wp_okOr]
  refine ⟨fun raw hraw => ?_, fun h => .incomplete _ fun _ _ hp _ => nomatch h.symm.trans hp⟩
  rw [Prog.wp_ofExcept]
  refine ⟨fun requested hrequested => ?_,
    fun e he => .incomplete _ fun _ _ _ h => nomatch he.symm.trans h⟩
  rw [wp_begin]
  refine ⟨fun h => .failed _ h, ?_⟩
  rw [wp_query_tx]
  refine ⟨fun h => .failed _ h, fun found hfound => ?_, fun e he => nomatch he⟩
  rw [db.after_of_reads rfl, Prog.wp_okOr]
  constructor
  · rintro record rfl
    have hf := locked_token hfound
    cases hcheck : record.checkUsable client.id d.now with
    | error u =>
        cases u with
        | alreadyRotated =>
            dsimp only
            rw [wp_query_tx]
            refine ⟨fun h => .failed _ h, fun _ _ => ?_, fun e he => nomatch he⟩
            rw [wp_commit]
            exact ⟨fun h => .failed _ h, .replayed hraw requested hrequested record hf hcheck⟩
        | wrongClient => exact .unusable hraw record hf _ (by decide) hcheck _
        | revoked => exact .unusable hraw record hf _ (by decide) hcheck _
        | expired => exact .unusable hraw record hf _ (by decide) hcheck _
    | ok u =>
        dsimp only
        simp only [Prog.wp_ofExcept]
        refine ⟨fun granted hgranted => ⟨fun scope hscope => ⟨fun response hsigned => ?_, fun e he => ?_⟩,
          fun e he => ?_⟩, fun e he => ?_⟩
        · simp only [Refresh.issue, Prog.bind_eq, Prog.pure_eq, Prog.bind_assoc, Prog.ret_bind]
          rw [wp_query_tx]
          refine ⟨fun h => .failed _ h, fun _ hinsert => ?_, fun e he => ?_⟩
          · rw [wp_query_tx]
            refine ⟨fun h => .failed _ h, fun _ _ => ?_, fun e he => nomatch he⟩
            rw [wp_commit]
            exact ⟨fun h => .failed _ h, .refreshed hraw record hf hcheck requested hrequested granted
              scope hgranted hscope response hsigned hinsert⟩
          · obtain ⟨t, ht, h⟩ := Db.result_tokensInsert_error _ he
            exact .duplicate hraw record hf hcheck _ t ht h
        · refine .refused hraw record hf hcheck _ fun requested' granted' scope' response' h1 h2 h3 h4 => ?_
          cases hrequested.symm.trans h1
          cases hgranted.symm.trans h2
          cases hscope.symm.trans h3
          exact nomatch he.symm.trans h4
        · refine .refused hraw record hf hcheck _ fun requested' granted' scope' response' h1 h2 h3 _ => ?_
          cases hrequested.symm.trans h1
          cases hgranted.symm.trans h2
          exact nomatch he.symm.trans h3
        · exact .refused hraw record hf hcheck _ fun _ _ _ _ _ h2 _ _ => nomatch he.symm.trans h2
  · rintro rfl
    exact .unknown hraw (not_locked_token hfound)

end Token

/-! ### Client authentication -/

namespace Client

/-- The credentials are those of an active client. -/
structure Authenticated (cr : Crates) (db : Db) (credentials : ClientCredentials)
    (client : OAuthClient) : Prop where
  found : db.clients.find? (fun c => c.clientId = credentials.clientId) = some client
  active : client.isActive = true
  accepted : accepts cr client credentials.clientSecret = true

namespace Authenticated

variable {cr : Crates} {db : Db} {credentials : ClientCredentials} {client client' : OAuthClient}

theorem mem (h : Authenticated cr db credentials client) : client ∈ db.clients :=
  List.mem_of_find?_eq_some h.found

theorem clientId_eq (h : Authenticated cr db credentials client) :
    client.clientId = credentials.clientId := by
  simpa using List.find?_some h.found

theorem eq (h : Authenticated cr db credentials client) (h' : Authenticated cr db credentials client') :
    client = client' := Option.some.inj (h.found.symm.trans h'.found)

end Authenticated

variable {α : Type} {flaky : Prop} {Q : Except AppError α → Conn Sharp → Prop} {db : Db}

theorem wp_authenticate {cr : Crates} {credentials : ClientCredentials}
    {f : OAuthClient → Service AppError α} (hflaky : ∀ err, flaky → Q (.error (.database err)) ⟨db, none⟩)
    (hok : ∀ client, Authenticated cr db credentials client → (f client).wp flaky Q ⟨db, none⟩)
    (hfail : (∀ client, ¬Authenticated cr db credentials client) →
      Q (.error .invalidClient) ⟨db, none⟩) :
    ((authenticate cr credentials).bind f).wp flaky Q ⟨db, none⟩ := by
  simp only [authenticate, Prog.bind_eq, Prog.pure_eq, Prog.bind_assoc]
  rw [wp_query_auto]
  refine ⟨hflaky _, fun found hfound => ?_, fun e he => nomatch he⟩
  have hfound : db.clients.find? (fun c => c.clientId = credentials.clientId) = found :=
    Except.ok.inj hfound
  rw [db.after_of_reads rfl]
  cases hactive : found.filter OAuthClient.isActive with
  | none =>
      refine hfail fun client h => ?_
      rw [← hfound, h.found, Option.filter_some, if_pos h.active] at hactive
      cases hactive
  | some client =>
      obtain ⟨rfl, hisActive⟩ : found = some client ∧ client.isActive = true :=
        Option.filter_eq_some_iff.1 hactive
      dsimp only
      split_ifs with haccepts
      · exact hok client ⟨hfound, hisActive, haccepts⟩
      · refine hfail fun client' h => haccepts ?_
        cases hfound.symm.trans h.found
        exact h.accepted

end Client

/-- The request repeats no parameter and authenticates as `client`. -/
structure Login (st : AppState) (db : Db) (header : Option String) (pairs : List (String × String))
    (params : Params) (client : OAuthClient) : Prop where
  params_ok : Params.fromPairs pairs = .ok params
  authenticated : ∃ credentials, Client.extractCredentials header params = .ok credentials ∧
    Client.Authenticated st.toCrates db credentials client

theorem Login.eq {st : AppState} {db : Db} {header : Option String} {pairs : List (String × String)}
    {params params' : Params} {client client' : OAuthClient}
    (h : Login st db header pairs params client) (h' : Login st db header pairs params' client') :
    params = params' ∧ client = client' := by
  cases h.params_ok.symm.trans h'.params_ok
  obtain ⟨credentials, hc, ha⟩ := h.authenticated
  obtain ⟨credentials', hc', ha'⟩ := h'.authenticated
  cases hc.symm.trans hc'
  exact ⟨rfl, ha.eq ha'⟩

section handlers

variable (st : AppState) (d : Draws) (header : Option String) (pairs : List (String × String))
  (flaky : Prop) (db : Db)

/-- What a token request answers and does. -/
inductive TokenEffect : Except AppError Token.TokenResponse → Db → Prop where
  | failed (err : SqlError) (h : flaky) : TokenEffect (.error (.database err)) db
  | refused (e : AppError) (h : ∀ params client, Login st db header pairs params client →
      ∀ grantType, Token.GrantType.parse (params.get "grant_type") ≠ .ok grantType) :
      TokenEffect (.error e) db
  | code (params : Params) (client : OAuthClient) (hl : Login st db header pairs params client)
      (hg : Token.GrantType.parse (params.get "grant_type") = .ok .authorizationCode)
      (r : Except AppError Token.TokenResponse) (db' : Db)
      (h : Token.CodeEffect st d client params flaky db r db') : TokenEffect r db'
  | refresh (params : Params) (client : OAuthClient) (hl : Login st db header pairs params client)
      (hg : Token.GrantType.parse (params.get "grant_type") = .ok .refreshToken)
      (r : Except AppError Token.TokenResponse) (db' : Db)
      (h : Token.RefreshEffect st d client params flaky db r db') : TokenEffect r db'

/-- What a revocation request answers and does. -/
inductive RevokeEffect : Except AppError Unit → Db → Prop where
  | failed (err : SqlError) (h : flaky) : RevokeEffect (.error (.database err)) db
  | refused (e : AppError) (h : ∀ params client, Login st db header pairs params client →
      params.get "token" = none) : RevokeEffect (.error e) db
  | unknown (params : Params) (client : OAuthClient) (hl : Login st db header pairs params client)
      (token : String) (htoken : params.get "token" = some token)
      (h : ∀ t ∈ db.refreshTokens, t.tokenHash ≠ st.hashToken token) : RevokeEffect (.ok ()) db
  | wrongClient (params : Params) (client : OAuthClient)
      (hl : Login st db header pairs params client) (token : String)
      (htoken : params.get "token" = some token) (record : RefreshToken)
      (hf : Token.Found db (st.hashToken token) record) (h : record.clientId ≠ client.id) :
      RevokeEffect (.error (.unauthorizedClient "the token was not issued to this client")) db
  | revoked (params : Params) (client : OAuthClient) (hl : Login st db header pairs params client)
      (token : String) (htoken : params.get "token" = some token) (record : RefreshToken)
      (hf : Token.Found db (st.hashToken token) record) (h : record.clientId = client.id) :
      RevokeEffect (.ok ()) (db.after (.tokensRevokeFamily record.familyId d.now))

end handlers

section handlers

variable {st : AppState} {d : Draws} {header : Option String} {pairs : List (String × String)}
  {flaky : Prop} {db : Db}

theorem mapError_eq_ok {α ε ε' : Type} {x : Except ε α} {f : ε → ε'} {a : α} :
    x.mapError f = .ok a ↔ x = .ok a := by
  cases x <;> simp [Except.mapError]

/-- **All that a token request can do.** -/
theorem Token.handle_wp : (Token.handle st d header pairs).wp flaky
    (fun r c => TokenEffect st d header pairs flaky db r c.db) { db } := by
  simp only [Token.handle, Prog.bind_eq, Prog.wp_ofExcept]
  refine ⟨fun params hparams => ⟨fun grantType hg => ⟨fun credentials hc => ?_, fun e he => ?_⟩,
    fun e he => ?_⟩, fun e he => ?_⟩
  · rw [mapError_eq_ok] at hparams
    refine Client.wp_authenticate (fun e h => .failed e h) (fun client ha => ?_) fun hfail => ?_
    · have hl : Login st db header pairs params client := ⟨hparams, credentials, hc, ha⟩
      cases grantType with
      | authorizationCode =>
          exact Prog.wp_mono (fun r c h => .code params client hl hg r c.db h) _ _
            Token.exchangeAuthorizationCode_wp
      | refreshToken =>
          exact Prog.wp_mono (fun r c h => .refresh params client hl hg r c.db h) _ _
            Token.exchangeRefreshToken_wp
    · refine .refused _ fun params' client hl => ?_
      cases hparams.symm.trans hl.params_ok
      obtain ⟨credentials', hc', ha⟩ := hl.authenticated
      cases hc.symm.trans hc'
      exact absurd ha (hfail client)
  · refine .refused _ fun params' client hl => ?_
    cases (mapError_eq_ok.1 hparams).symm.trans hl.params_ok
    obtain ⟨credentials, hc, _⟩ := hl.authenticated
    exact nomatch he.symm.trans hc
  · refine .refused _ fun params' client hl grantType hg => ?_
    cases (mapError_eq_ok.1 hparams).symm.trans hl.params_ok
    exact nomatch he.symm.trans hg
  · refine .refused _ fun params client hl => ?_
    exact nomatch he.symm.trans (mapError_eq_ok.2 hl.params_ok)

/-- **All that a revocation request can do.** -/
theorem Revocation.handle_wp : (Revocation.handle st d header pairs).wp flaky
    (fun r c => RevokeEffect st d header pairs flaky db r c.db) { db } := by
  simp only [Revocation.handle, Prog.bind_eq, Prog.pure_eq, Prog.wp_ofExcept]
  refine ⟨fun params hparams => ⟨fun credentials hc => ?_, fun e he => ?_⟩, fun e he => ?_⟩
  · rw [mapError_eq_ok] at hparams
    refine Client.wp_authenticate (fun e h => .failed e h) (fun client ha => ?_) fun hfail => ?_
    · have hl : Login st db header pairs params client := ⟨hparams, credentials, hc, ha⟩
      rw [Prog.wp_okOr]
      refine ⟨fun token htoken => ?_, fun hnone => .refused _ fun params' client' hl' => ?_⟩
      · rw [wp_query_auto]
        refine ⟨fun h => .failed _ h, fun found hfound => ?_, fun e he => nomatch he⟩
        rw [db.after_of_reads rfl]
        cases found with
        | none => exact .unknown params client hl token htoken (Token.not_found_token hfound)
        | some record =>
            have hf := Token.found_token hfound
            dsimp only
            split_ifs with hclient
            · exact .wrongClient params client hl token htoken record hf hclient
            · rw [wp_query_auto]
              exact ⟨fun h => .failed _ h, fun _ _ => .revoked params client hl token htoken record hf
                (not_not.1 hclient), fun e he => nomatch he⟩
      · rw [← (hl.eq hl').1]
        exact hnone
    · refine .refused _ fun params' client hl => ?_
      cases hparams.symm.trans hl.params_ok
      obtain ⟨credentials', hc', ha⟩ := hl.authenticated
      cases hc.symm.trans hc'
      exact absurd ha (hfail client)
  · refine .refused _ fun params' client hl => ?_
    cases (mapError_eq_ok.1 hparams).symm.trans hl.params_ok
    obtain ⟨credentials, hc, _⟩ := hl.authenticated
    exact nomatch he.symm.trans hc
  · refine .refused _ fun params client hl => ?_
    exact nomatch he.symm.trans (mapError_eq_ok.2 hl.params_ok)

/-- The response to a token request. -/
def tokenResponse : Except AppError Token.TokenResponse → Response
  | .ok tokens => { status := 200, body := .tokens tokens }
  | .error e => e.intoResponse

/-- The response to a revocation request. -/
def revokeResponse : Except AppError Unit → Response
  | .ok () => { status := 200, body := .empty }
  | .error e => e.intoResponse

theorem token_eq {headers : HeaderMap} : token st d headers (some pairs) =
    (Token.handle st d (authorizationHeader headers) pairs).attempt.bind
      fun r => .ret (tokenResponse r) := by
  show Prog.bind _ _ = _
  congr 1
  funext r
  cases r <;> rfl

theorem revoke_eq {headers : HeaderMap} : revoke st d headers (some pairs) =
    (Revocation.handle st d (authorizationHeader headers) pairs).attempt.bind
      fun r => .ret (revokeResponse r) := by
  show Prog.bind _ _ = _
  congr 1
  funext r
  cases r <;> rfl

theorem serve_token (st : AppState) (d : Draws) (headers : HeaderMap)
    (pairs : List (String × String)) (faults : List Bool) (db : Db) :
    ∃ r, (serve st d faults (.token headers (some pairs)) db).1 = tokenResponse r ∧
      TokenEffect st d (authorizationHeader headers) pairs (true ∈ faults) db r
        (serve st d faults (.token headers (some pairs)) db).2 := by
  refine Prog.wp_serve (S := Sharp) (R := fun r db' => ∃ r', Prog.value r = tokenResponse r' ∧
    TokenEffect st d (authorizationHeader headers) pairs (true ∈ faults) db r' db') _ faults db ?_
  show (token st d headers (some pairs)).wp _ _ _
  rw [token_eq, Prog.wp_attempt_bind]
  exact Prog.wp_mono (fun r c h => ⟨r, rfl, h⟩) _ _ Token.handle_wp

theorem serve_revoke (st : AppState) (d : Draws) (headers : HeaderMap)
    (pairs : List (String × String)) (faults : List Bool) (db : Db) :
    ∃ r, (serve st d faults (.revoke headers (some pairs)) db).1 = revokeResponse r ∧
      RevokeEffect st d (authorizationHeader headers) pairs (true ∈ faults) db r
        (serve st d faults (.revoke headers (some pairs)) db).2 := by
  refine Prog.wp_serve (S := Sharp) (R := fun r db' => ∃ r', Prog.value r = revokeResponse r' ∧
    RevokeEffect st d (authorizationHeader headers) pairs (true ∈ faults) db r' db') _ faults db ?_
  show (revoke st d headers (some pairs)).wp _ _ _
  rw [revoke_eq, Prog.wp_attempt_bind]
  exact Prog.wp_mono (fun r c h => ⟨r, rfl, h⟩) _ _ Revocation.handle_wp

end handlers

end SharpOauth
