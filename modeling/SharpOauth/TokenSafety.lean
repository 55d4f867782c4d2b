import SharpOauth.AuthorizationSafety

/-! # What failed token and revocation requests change

`ErrorDelta` lists what a request that is answered with an error does to the tables: one of three
deliberate changes (`MisfitCode`, `UsedCode`, `RotatedToken` say when), and nothing in every other
case, or when a call to the database failed.  `Harmless` lists the mistakes that by themselves
change nothing. -/

namespace SharpOauth

open Token

/-! ### The three cases -/

section cases

variable (st : AppState) (d : Draws) (db : Db)

/-- A token request for the grant type, with which `client` authenticates. -/
inductive TokenLogin (grantType : String) (params : Params) (client : OAuthClient) : Request → Prop where
  | token (headers : HeaderMap) (pairs : List (String × String))
      (hl : Login st db (authorizationHeader headers) pairs params client)
      (hg : params.get "grant_type" = some grantType) :
      TokenLogin grantType params client (.token headers (some pairs))

/-- A complete presentation of an unused code that does not fit: the error `e` says why. -/
structure MisfitCode (req : Request) (record : AuthorizationCode) (e : AppError) : Prop where
  mem : record ∈ db.codes
  unused : record.usedAt = none
  presented : ∃ params client code uri verifier,
    TokenLogin st db "authorization_code" params client req ∧ Presents params code uri verifier ∧
      record.codeHash = st.hashToken code ∧
      checkCodeBindings st.toCrates record client uri verifier d.now = .error e

/-- A complete presentation of a used code. -/
structure UsedCode (req : Request) (record : AuthorizationCode) : Prop where
  mem : record ∈ db.codes
  used : record.usedAt ≠ none
  presented : ∃ params client code uri verifier,
    TokenLogin st db "authorization_code" params client req ∧ Presents params code uri verifier ∧
      record.codeHash = st.hashToken code

/-- A client presents a token of its own that was rotated, and is not revoked; the `scope`
parameter, if there is one, is well formed. -/
structure RotatedToken (req : Request) (record : RefreshToken) : Prop where
  mem : record ∈ db.refreshTokens
  unrevoked : record.revokedAt = none
  rotated : record.rotatedToId ≠ none
  presented : ∃ params client token, TokenLogin st db "refresh_token" params client req ∧
    params.get "refresh_token" = some token ∧ record.tokenHash = st.hashToken token ∧
    record.clientId = client.id ∧
    ∀ raw, params.get "scope" = some raw → ∃ scope, ScopeSet.parse raw = .ok scope

/-- None of the three cases. -/
structure Ordinary (req : Request) : Prop where
  misfitCode : ∀ record e, ¬MisfitCode st d db req record e
  usedCode : ∀ record, ¬UsedCode st db req record
  rotatedToken : ∀ record, ¬RotatedToken st db req record

/-- What a request that is answered with the error `e` does; `flaky` says that a call to the
database failed. -/
inductive ErrorDelta (req : Request) (flaky : Prop) (e : AppError) : Db → Prop where
  | unchanged (h : Ordinary st d db req ∨ flaky ∧ ∃ err, e = .database err) :
      ErrorDelta req flaky e db
  /-- A complete presentation of an unused code that does not fit uses it up. -/
  | codeConsumed (record : AuthorizationCode) (h : MisfitCode st d db req record e) (db' : Db)
      (hrow : db'.codes = db.codes.map fun c =>
        if c.id = record.id then { c with usedAt := some d.now } else c)
      (hframe : ∀ t, t ≠ .codes → db' t = db t) : ErrorDelta req flaky e db'
  /-- A used code revokes the families that were born from it. -/
  | codeReplayed (record : AuthorizationCode) (h : UsedCode st db req record)
      (he : e = .invalidGrant "authorization code has already been used") (db' : Db)
      (hrows : db'.refreshTokens = db.refreshTokens.map fun t =>
        if (∃ b ∈ db.refreshTokens, b.authorizationCodeId = some record.id ∧ b.familyId = t.familyId) ∧
          t.revokedAt = none then { t with revokedAt := some d.now } else t)
      (hframe : ∀ t, t ≠ .refreshTokens → db' t = db t) : ErrorDelta req flaky e db'
  /-- A rotated token revokes its family. -/
  | tokenReplayed (record : RefreshToken) (h : RotatedToken st db req record)
      (he : e = .invalidGrant "refresh token has already been used") (db' : Db)
      (hrows : db'.refreshTokens = db.refreshTokens.map fun t =>
        if t.familyId = record.familyId ∧ t.revokedAt = none then
          { t with revokedAt := some d.now }
        else t)
      (hframe : ∀ t, t ≠ .refreshTokens → db' t = db t) : ErrorDelta req flaky e db'

end cases

section harmless

variable (st : AppState) (d : Draws) (header : Option String) (pairs : List (String × String))
  (db : Db) (e : AppError)

/-- The mistakes, and the failures of the server, that change nothing. -/
inductive Harmless : Prop where
  | repeatedParameter (h : ¬(pairs.map Prod.fst).Nodup)
  | notAuthenticated (h : ∀ params client, ¬Login st db header pairs params client)
  | missingParameter (params : Params) (hparams : Params.fromPairs pairs = .ok params)
      (name : String) (hmissing : params.get name = none)
      (hrequired : name = "grant_type" ∨
        params.get "grant_type" = some "authorization_code" ∧
          name ∈ ["code", "redirect_uri", "code_verifier"] ∨
        params.get "grant_type" = some "refresh_token" ∧ name = "refresh_token")
  | malformedScope (params : Params) (hparams : Params.fromPairs pairs = .ok params)
      (hg : params.get "grant_type" = some "refresh_token") (raw : String)
      (hraw : params.get "scope" = some raw) (e : ScopeError) (h : ScopeSet.parse raw = .error e)
  /-- Another client's, a revoked or an expired refresh token; and a token that is usable, but
  not for the scopes that are requested. -/
  | refusedToken (params : Params) (client : OAuthClient)
      (hl : Login st db header pairs params client)
      (hg : params.get "grant_type" = some "refresh_token") (token : String)
      (htoken : params.get "refresh_token" = some token) (record : RefreshToken)
      (hmem : record ∈ db.refreshTokens) (hhash : record.tokenHash = st.hashToken token)
      (h : record.checkUsable client.id d.now ∈
          [.error .wrongClient, .error .revoked, .error .expired] ∨
        record.checkUsable client.id d.now = .ok () ∧ ∃ raw requested granted,
          params.get "scope" = some raw ∧ ScopeSet.parse raw = .ok requested ∧
          ScopeSet.parse record.scope = .ok granted ∧ requested.isSubsetOf granted = false)
  | storageFailure (err : SqlError) (h : e = .database err)
  | signingFailure (err : String) (h : e = .internal err)

end harmless

/-- The requests of client applications; a body that is not a form has no parameters. -/
inductive ClientRequest (headers : HeaderMap) (form : Option (List (String × String))) :
    Request → Prop where
  | token : ClientRequest headers form (.token headers form)
  | revoke : ClientRequest headers form (.revoke headers form)

theorem Token.GrantType.parse_eq_ok {raw : Option String} {g : GrantType} :
    GrantType.parse raw = .ok g ↔
      raw = some (match g with
        | .authorizationCode => "authorization_code"
        | .refreshToken => "refresh_token") := by
  cases raw with
  | none => cases g <;> simp [GrantType.parse]
  | some raw =>
      rw [GrantType.parse]
      split_ifs with h1 h2 <;> cases g <;> simp_all

/-- A well-formed `scope` parameter, or none. -/
theorem requestedScope_ok_iff {o : Option String} : (∃ requested, requestedScope o = .ok requested) ↔
    ∀ raw, o = some raw → ∃ scope, ScopeSet.parse raw = .ok scope := by
  cases o with
  | none => simp [requestedScope]
  | some raw => cases h : ScopeSet.parse raw <;> simp [requestedScope, h]

theorem RefreshToken.checkUsable_alreadyRotated {t : RefreshToken} {clientId : Uuid} {now : Instant} :
    t.checkUsable clientId now = .error .alreadyRotated ↔
      t.clientId = clientId ∧ t.revokedAt = none ∧ t.rotatedToId ≠ none := by
  rw [RefreshToken.checkUsable]
  split_ifs with h1 h2 h3 h4 <;> simp_all [Option.isSome_iff_ne_none]

section errors

variable {st : AppState} {d : Draws} {header : Option String} {pairs : List (String × String)}
  {flaky : Prop} {db db' : Db} {e : AppError}

/-- Of unique hashes, claiming one uses up one code. -/
theorem after_codesClaim_row (hu : db.Unique) {codeHash : String} {record : AuthorizationCode}
    (h : Unused db codeHash record) (now : Instant) :
    (db.after (.codesClaim codeHash now)).codes = db.codes.map fun c =>
      if c.id = record.id then { c with usedAt := some now } else c := by
  rw [Db.after_codesClaim]
  refine List.map_congr_left fun c hc => ?_
  rw [AuthorizationCode.claim]
  by_cases hid : c.id = record.id
  · obtain rfl : c = record := hu.eq (t := .codes) hc h.mem (by simp [clash, hid])
    simp [h.hash, h.unused]
  · have hhash : c.codeHash ≠ codeHash := fun hhash => hid (by
      rw [show c = record from hu.eq (t := .codes) hc h.mem (by simp [clash, hhash, h.hash])])
    simp [hid, hhash]

/-- An exchange of a code is out of the three cases if it presents no code that they speak of. -/
theorem ordinary_of_code {headers : HeaderMap} {params : Params} {client : OAuthClient}
    (hl : Login st db (authorizationHeader headers) pairs params client)
    (hg : params.get "grant_type" = some "authorization_code")
    (h : ∀ code uri verifier, Presents params code uri verifier → ∀ record ∈ db.codes,
      record.codeHash = st.hashToken code → record.usedAt = none ∧
        checkCodeBindings st.toCrates record client uri verifier d.now = .ok ()) :
    Ordinary st d db (.token headers (some pairs)) := by
  constructor
  · rintro record e ⟨hmem, -, params', client', code, uri, verifier, ⟨_, _, hl', -⟩, hp, hhash, hb⟩
    obtain ⟨rfl, rfl⟩ := hl.eq hl'
    cases hb.symm.trans (h code uri verifier hp record hmem hhash).2
  · rintro record ⟨hmem, hused, params', client', code, uri, verifier, ⟨_, _, hl', -⟩, hp, hhash⟩
    obtain ⟨rfl, rfl⟩ := hl.eq hl'
    exact hused (h code uri verifier hp record hmem hhash).1
  · rintro record ⟨-, -, -, params', client', token, ⟨_, _, hl', hg'⟩, -⟩
    obtain ⟨rfl, rfl⟩ := hl.eq hl'
    exact absurd (hg.symm.trans hg') (by simp)

/-- An exchange of a refresh token is out of the three cases if it presents no rotated token. -/
theorem ordinary_of_refresh {headers : HeaderMap} {params : Params} {client : OAuthClient}
    (hl : Login st db (authorizationHeader headers) pairs params client)
    (hg : params.get "grant_type" = some "refresh_token")
    (h : ∀ token requested, params.get "refresh_token" = some token →
      requestedScope (params.get "scope") = .ok requested → ∀ record ∈ db.refreshTokens,
      record.tokenHash = st.hashToken token →
        record.checkUsable client.id d.now ≠ .error .alreadyRotated) :
    Ordinary st d db (.token headers (some pairs)) := by
  constructor
  · rintro record e ⟨-, -, params', client', code, uri, verifier, ⟨_, _, hl', hg'⟩, -⟩
    obtain ⟨rfl, rfl⟩ := hl.eq hl'
    exact absurd (hg.symm.trans hg') (by simp)
  · rintro record ⟨-, -, params', client', code, uri, verifier, ⟨_, _, hl', hg'⟩, -⟩
    obtain ⟨rfl, rfl⟩ := hl.eq hl'
    exact absurd (hg.symm.trans hg') (by simp)
  · rintro record ⟨hmem, hunrevoked, hrotated, params', client', token, ⟨_, _, hl', -⟩, htoken, hhash,
      howner, hscope⟩
    obtain ⟨rfl, rfl⟩ := hl.eq hl'
    obtain ⟨requested, hrequested⟩ := requestedScope_ok_iff.2 hscope
    exact h token requested htoken hrequested record hmem hhash
      (RefreshToken.checkUsable_alreadyRotated.2 ⟨howner, hunrevoked, hrotated⟩)

/-- Without a login for a known grant type, none of the three cases. -/
theorem ordinary_of_refused {req : Request}
    (h : ∀ grantType params client, TokenLogin st db grantType params client req →
      grantType ∉ ["authorization_code", "refresh_token"]) : Ordinary st d db req := by
  constructor
  · rintro record e ⟨-, -, params, client, code, uri, verifier, he, -⟩
    exact h _ params client he (by simp)
  · rintro record ⟨-, -, params, client, code, uri, verifier, he, -⟩
    exact h _ params client he (by simp)
  · rintro record ⟨-, -, -, params, client, token, he, -⟩
    exact h _ params client he (by simp)

theorem Token.CodeEffect.errorDelta (hu : db.Unique) {headers : HeaderMap} {params : Params}
    {client : OAuthClient} (hl : Login st db (authorizationHeader headers) pairs params client)
    (hg : params.get "grant_type" = some "authorization_code")
    {r : Except AppError TokenResponse} (h : CodeEffect st d client params flaky db r db')
    (hr : r = .error e) : ErrorDelta st d db (.token headers (some pairs)) flaky e db' := by
  have hlogin : TokenLogin st db "authorization_code" params client (.token headers (some pairs)) :=
    .token headers pairs hl hg
  -- The code that fits is the only one with its hash.
  have hfits {code uri verifier : String} (hp : Presents params code uri verifier)
      {record : AuthorizationCode} (hrecord : Unused db (st.hashToken code) record)
      (hb : checkCodeBindings st.toCrates record client uri verifier d.now = .ok ()) :
      Ordinary st d db (.token headers (some pairs)) := by
    refine ordinary_of_code hl hg fun code' uri' verifier' hp' record' hmem' hhash' => ?_
    cases hp.code.symm.trans hp'.code
    cases hp.redirectUri.symm.trans hp'.redirectUri
    cases hp.codeVerifier.symm.trans hp'.codeVerifier
    obtain rfl : record = record' :=
      hu.eq (t := .codes) hrecord.mem hmem' (by simp [clash, hrecord.hash, hhash'])
    exact ⟨hrecord.unused, hb⟩
  cases h with
  | incomplete e h =>
      refine .unchanged (.inl (ordinary_of_code hl hg fun code uri verifier hp => ?_))
      exact absurd hp (h code uri verifier)
  | failed err h =>
      cases hr
      exact .unchanged (.inr ⟨h, err, rfl⟩)
  | unknown hp h =>
      refine .unchanged (.inl (ordinary_of_code hl hg fun code uri verifier hp' record hmem hhash => ?_))
      cases hp.code.symm.trans hp'.code
      exact absurd hhash (h record hmem)
  | unsigned hp record hrecord hb => exact .unchanged (.inl (hfits hp hrecord hb))
  | duplicate hp record hrecord hb => exact .unchanged (.inl (hfits hp hrecord hb))
  | redeemed => cases hr
  | redeemedOffline => cases hr
  | rejected hp record hrecord e' hb =>
      cases hr
      exact .codeConsumed record ⟨hrecord.mem, hrecord.unused, params, client, _, _, _, hlogin, hp,
        hrecord.hash, hb⟩ _ (after_codesClaim_row hu hrecord _)
        fun t ht => db.after_of_writes (by simp [Stmt.writes, ht])
  | replayed hp used hmem hhash hused =>
      cases hr
      refine .codeReplayed used ⟨hmem, hused used hmem hhash, params, client, _, _, _, hlogin, hp,
        hhash⟩ rfl _ ?_ fun t ht => db.after_of_writes (by simp [Stmt.writes, ht])
      rw [Db.after_tokensRevokeByAuthorizationCode]
      refine List.map_congr_left fun t ht => ?_
      simp [RefreshToken.revokeIf, Db.bornFrom]

theorem Token.RefreshEffect.errorDelta (hu : db.Unique) {headers : HeaderMap} {params : Params}
    {client : OAuthClient} (hl : Login st db (authorizationHeader headers) pairs params client)
    (hg : params.get "grant_type" = some "refresh_token")
    {r : Except AppError TokenResponse} (h : RefreshEffect st d client params flaky db r db')
    (hr : r = .error e) : ErrorDelta st d db (.token headers (some pairs)) flaky e db' := by
  -- The token that is answered otherwise is the only one with its hash.
  have hother {raw : String} (hraw : params.get "refresh_token" = some raw) {record : RefreshToken}
      (hf : Found db (st.hashToken raw) record)
      (hcheck : record.checkUsable client.id d.now ≠ .error .alreadyRotated) :
      Ordinary st d db (.token headers (some pairs)) := by
    refine ordinary_of_refresh hl hg fun token requested htoken _ record' hmem' hhash' => ?_
    cases hraw.symm.trans htoken
    obtain rfl : record = record' :=
      hu.eq (t := .refreshTokens) hf.mem hmem' (by simp [clash, hf.hash, hhash'])
    exact hcheck
  cases h with
  | incomplete e h =>
      refine .unchanged (.inl (ordinary_of_refresh hl hg fun token requested htoken hrequested => ?_))
      exact absurd hrequested (h token requested htoken)
  | failed err h =>
      cases hr
      exact .unchanged (.inr ⟨h, err, rfl⟩)
  | unknown hraw h =>
      refine .unchanged (.inl (ordinary_of_refresh hl hg fun token _ htoken _ record hmem hhash => ?_))
      cases hraw.symm.trans htoken
      exact absurd hhash (h record hmem)
  | unusable hraw record hf u hne h =>
      refine .unchanged (.inl (hother hraw hf fun h' => hne ?_))
      exact Except.error.inj (h.symm.trans h')
  | refused hraw record hf hok => exact .unchanged (.inl (hother hraw hf (by simp [hok])))
  | duplicate hraw record hf hok => exact .unchanged (.inl (hother hraw hf (by simp [hok])))
  | refreshed => cases hr
  | replayed hraw requested hrequested record hf h =>
      cases hr
      obtain ⟨howner, hunrevoked, hrotated⟩ := RefreshToken.checkUsable_alreadyRotated.1 h
      refine .tokenReplayed record ⟨hf.mem, hunrevoked, hrotated, params, client, _,
        .token headers pairs hl hg, hraw, hf.hash, howner, requestedScope_ok_iff.1 ⟨requested, hrequested⟩⟩
        rfl _ ?_ fun t ht => db.after_of_writes (by simp [Stmt.writes, ht])
      rw [Db.after_tokensRevokeFamily]
      refine List.map_congr_left fun t ht => ?_
      simp [RefreshToken.revokeIf]

theorem checkCodeBindings_error {cr : Crates} {record : AuthorizationCode} {client : OAuthClient}
    {uri verifier : String} {now : Instant}
    (h : checkCodeBindings cr record client uri verifier now = .error e) :
    ∃ description, e = .invalidGrant description := by
  rw [checkCodeBindings] at h
  split_ifs at h <;> exact ⟨_, (Except.error.inj h).symm⟩

/-- A harmless mistake rules out a complete presentation of a code. -/
theorem Harmless.not_presents (h : Harmless st d header pairs db e) {params : Params}
    {client : OAuthClient} (hl : Login st db header pairs params client)
    (hg : params.get "grant_type" = some "authorization_code") {code uri verifier : String}
    (hp : Presents params code uri verifier) {description : String}
    (he : e = .invalidGrant description) : False := by
  subst he
  cases h with
  | repeatedParameter h => exact h ((Params.fromPairs_ok_iff pairs).1 ⟨params, hl.params_ok⟩)
  | notAuthenticated h => exact h params client hl
  | missingParameter params' hparams name hmissing hrequired =>
      cases hparams.symm.trans hl.params_ok
      rcases hrequired with rfl | ⟨-, hname⟩ | ⟨hg', -⟩
      · exact nomatch hmissing.symm.trans hg
      · simp only [List.mem_cons, List.not_mem_nil, or_false] at hname
        rcases hname with rfl | rfl | rfl
        · exact nomatch hmissing.symm.trans hp.code
        · exact nomatch hmissing.symm.trans hp.redirectUri
        · exact nomatch hmissing.symm.trans hp.codeVerifier
      · exact absurd (hg.symm.trans hg') (by simp)
  | malformedScope params' hparams hg' =>
      cases hparams.symm.trans hl.params_ok
      exact absurd (hg.symm.trans hg') (by simp)
  | refusedToken params' client' hl' hg' =>
      obtain ⟨rfl, rfl⟩ := hl.eq hl'
      exact absurd (hg.symm.trans hg') (by simp)
  | storageFailure err h => cases h
  | signingFailure err h => cases h

/-- A harmless mistake rules out a replay of a refresh token. -/
theorem Harmless.not_replays (hu : db.Unique) (h : Harmless st d header pairs db e) {params : Params}
    {client : OAuthClient} (hl : Login st db header pairs params client)
    (hg : params.get "grant_type" = some "refresh_token") {token : String}
    (htoken : params.get "refresh_token" = some token) {record : RefreshToken}
    (hmem : record ∈ db.refreshTokens) (hhash : record.tokenHash = st.hashToken token)
    (hrotated : record.checkUsable client.id d.now = .error .alreadyRotated)
    (hscope : ∀ raw, params.get "scope" = some raw → ∃ scope, ScopeSet.parse raw = .ok scope)
    {description : String} (he : e = .invalidGrant description) : False := by
  subst he
  cases h with
  | repeatedParameter h => exact h ((Params.fromPairs_ok_iff pairs).1 ⟨params, hl.params_ok⟩)
  | notAuthenticated h => exact h params client hl
  | missingParameter params' hparams name hmissing hrequired =>
      cases hparams.symm.trans hl.params_ok
      rcases hrequired with rfl | ⟨hg', -⟩ | ⟨-, rfl⟩
      · exact nomatch hmissing.symm.trans hg
      · exact absurd (hg.symm.trans hg') (by simp)
      · exact nomatch hmissing.symm.trans htoken
  | malformedScope params' hparams hg' raw hraw e' h =>
      cases hparams.symm.trans hl.params_ok
      obtain ⟨scope, hok⟩ := hscope raw hraw
      exact nomatch h.symm.trans hok
  | refusedToken params' client' hl' hg' token' htoken' record' hmem' hhash' h =>
      obtain ⟨rfl, rfl⟩ := hl.eq hl'
      cases htoken.symm.trans htoken'
      obtain rfl : record = record' :=
        hu.eq (t := .refreshTokens) hmem hmem' (by simp [clash, hhash, hhash'])
      simp [hrotated] at h
  | storageFailure err h => cases h
  | signingFailure err h => cases h

theorem ClientRequest.login {headers : HeaderMap} {form : Option (List (String × String))}
    {req : Request} (hreq : ClientRequest headers form req) {grantType : String} {params : Params}
    {client : OAuthClient} (h : TokenLogin st db grantType params client req) :
    Login st db (authorizationHeader headers) (form.getD []) params client ∧
      params.get "grant_type" = some grantType := by
  cases h with
  | token headers' pairs hl hg =>
      cases hreq
      exact ⟨hl, hg⟩

theorem ErrorDelta.eq_of_harmless (hu : db.Unique) {headers : HeaderMap}
    {form : Option (List (String × String))} {req : Request} (hreq : ClientRequest headers form req)
    (h : ErrorDelta st d db req flaky e db')
    (hh : Harmless st d (authorizationHeader headers) (form.getD []) db e) : db' = db := by
  cases h with
  | unchanged => rfl
  | codeConsumed record h =>
      obtain ⟨params, client, code, uri, verifier, hlogin, hp, hhash, hbindings⟩ := h.presented
      obtain ⟨hl, hg⟩ := hreq.login hlogin
      obtain ⟨description, he⟩ := checkCodeBindings_error hbindings
      exact (hh.not_presents hl hg hp he).elim
  | codeReplayed record h he =>
      obtain ⟨params, client, code, uri, verifier, hlogin, hp, hhash⟩ := h.presented
      obtain ⟨hl, hg⟩ := hreq.login hlogin
      exact (hh.not_presents hl hg hp he).elim
  | tokenReplayed record h he =>
      obtain ⟨params, client, token, hlogin, htoken, hhash, howner, hscope⟩ := h.presented
      obtain ⟨hl, hg⟩ := hreq.login hlogin
      exact (hh.not_replays hu hl hg htoken h.mem hhash
        (RefreshToken.checkUsable_alreadyRotated.2 ⟨howner, h.unrevoked, h.rotated⟩) hscope he).elim

theorem tokenResponse_error {r : Except AppError TokenResponse}
    (h : (tokenResponse r).body = .oauthError e) : r = .error e := by
  cases r with
  | ok tokens => cases h
  | error e' =>
      cases h
      rfl

theorem revokeResponse_error {r : Except AppError Unit}
    (h : (revokeResponse r).body = .oauthError e) : r = .error e := by
  cases r with
  | ok _ => cases h
  | error e' =>
      cases h
      rfl

end errors

/-! ### The deployment, with tokens

The user approves the first client, which gets a code and exchanges it; then the second client
presents the same code. -/

namespace Sample

/-- The consent form of the first client, approved. -/
def consentForm : List (String × String) :=
  (request none).toPairs ++ [("csrf_token", "x"), ("decision", "approve")]

/-- An exchange of the code that the consent form leads to, by some client. -/
def exchangeForm (clientId : String) : List (String × String) :=
  [("grant_type", "authorization_code"), ("client_id", clientId),
    ("code", "DAwMDAwMDAwMDAwMDAwMDAwMDAwMDAwMDAwMDAwMDAw"),
    ("redirect_uri", "https://a.example/cb"),
    ("code_verifier", "0000000000000000000000000000000000000000000")]

def code : AuthorizationCode where
  id := ⟨12⟩
  codeHash := "sLya9_MjzPiDmW2n46DFI3e1EzftBI-AfYc_bpz0ayc"
  clientId := ⟨6⟩
  userId := ⟨3⟩
  redirectUri := "https://a.example/cb"
  scope := "offline_access openid"
  codeChallenge := "uRiyKhWB_t05BYBl8A5qrTW9Vh8gJXFRExod3NIYA94"
  codeChallengeMethod := "S256"
  nonce := none
  authTime := 1000000
  expiresAt := 64000000
  createdAt := 4000000
  usedAt := none

def approval : OAuthConsent where
  id := ⟨13⟩
  userId := ⟨3⟩
  clientId := ⟨6⟩
  scopes := ["offline_access", "openid"]
  createdAt := 4000000
  updatedAt := 4000000
  revokedAt := none

def refreshToken : RefreshToken where
  id := ⟨17⟩
  tokenHash := "RFdw8LM26SRwdqgOAI73F_XYpBtJlAOzS7JZbPXtUXw"
  familyId := ⟨16⟩
  authorizationCodeId := some ⟨12⟩
  clientId := ⟨6⟩
  userId := ⟨3⟩
  scope := "offline_access openid"
  authTime := 1000000
  expiresAt := 2592005000000
  createdAt := 5000000
  revokedAt := none
  rotatedToId := none

/-- The first client has a code. -/
def issued : Db := (registered.set .codes [code]).set .consents [approval]

/-- The first client has exchanged it. -/
def exchanged : Db :=
  (issued.set .codes [{ code with usedAt := some 5000000 }]).set .refreshTokens [refreshToken]

def noHeaders : HeaderMap := ⟨none, []⟩

def exchange (clientId : String) : Request := .token noHeaders (some (exchangeForm clientId))

/-- The second client has presented the code once more. -/
def replayed : Db := exchanged.set .refreshTokens [{ refreshToken with revokedAt := some 6000000 }]

theorem serve_consent : (serve state (draws 4) [] (.consent signedInBrowser consentForm)
    registered).2 = issued := rows_inj (by decide +kernel)

theorem serve_exchange : (serve state (draws 5) [] (exchange clientA.clientId) issued).2 = exchanged :=
  rows_inj (by decide +kernel)

def authorizations : List Event :=
  [event 5 (exchange clientA.clientId) issued,
    event 4 (.consent signedInBrowser consentForm) registered] ++ registrations

theorem served_exchanged : Served 6 authorizations exchanged :=
  (served_registered.step (by decide) serve_consent).step (by decide) serve_exchange

/-- The error of a response, if it is one. -/
def error? (r : Response) : Option AppError :=
  match r.body with
  | .oauthError e => some e
  | _ => none

theorem error?_eq_some {r : Response} {e : AppError} (h : error? r = some e) :
    r.body = .oauthError e := by
  obtain ⟨status, body, cookies⟩ := r
  cases body <;> cases h
  rfl

theorem serve_replay :
    error? (serve state (draws 6) [] (exchange clientB.clientId) exchanged).1 =
        some (.invalidGrant "authorization code has already been used") ∧
      rows (serve state (draws 6) [] (exchange clientB.clientId) exchanged).2 = rows replayed := by
  decide +kernel

def replays : List Event := event 6 (exchange clientB.clientId) exchanged :: authorizations

theorem served_replayed : Served 7 replays replayed :=
  served_exchanged.step (by decide) (rows_inj serve_replay.2)

end Sample

theorem clientRequest_errorDelta {st : AppState} {d : Draws} {faults : List Bool}
    {headers : HeaderMap} {form : Option (List (String × String))} {req : Request} {db : Db}
    {e : AppError} (hu : db.Unique) (hreq : ClientRequest headers form req)
    (he : (serve st d faults req db).1.body = .oauthError e) :
    ErrorDelta st d db req (true ∈ faults) e (serve st d faults req db).2 := by
  cases hreq with
  | revoke =>
      -- A revocation request exchanges nothing.
      have hordinary : Ordinary st d db (.revoke headers form) := ordinary_of_refused (by rintro _ _ _ ⟨⟩)
      cases form with
      | none => exact .unchanged (.inl hordinary)
      | some pairs =>
          obtain ⟨r, hr, heffect⟩ := serve_revoke st d headers pairs faults db
          rw [hr] at he
          have he := revokeResponse_error he
          generalize (serve st d faults (.revoke headers (some pairs)) db).2 = db' at heffect ⊢
          cases heffect with
          | failed | refused | wrongClient => exact .unchanged (.inl hordinary)
          | unknown | revoked => cases he
  | token =>
      cases form with
      | none => exact .unchanged (.inl (ordinary_of_refused (by rintro _ _ _ ⟨⟩)))
      | some pairs =>
          obtain ⟨r, hr, heffect⟩ := serve_token st d headers pairs faults db
          rw [hr] at he
          have he := tokenResponse_error he
          generalize (serve st d faults (.token headers (some pairs)) db).2 = db' at heffect ⊢
          cases heffect with
          | failed err h =>
              cases he
              exact .unchanged (.inr ⟨h, err, rfl⟩)
          | refused e' h =>
              refine .unchanged (.inl (ordinary_of_refused ?_))
              rintro grantType params client ⟨_, _, hl, hg⟩ hmem
              simp only [List.mem_cons, List.not_mem_nil, or_false] at hmem
              rcases hmem with rfl | rfl
              · exact h params client hl .authorizationCode (GrantType.parse_eq_ok.2 hg)
              · exact h params client hl .refreshToken (GrantType.parse_eq_ok.2 hg)
          | code params client hl hg r db' h => exact h.errorDelta hu hl (GrantType.parse_eq_ok.1 hg) he
          | refresh params client hl hg r db' h =>
              exact h.errorDelta hu hl (GrantType.parse_eq_ok.1 hg) he

/-- **A failed token or revocation request changes what it must, and only that.** -/
theorem failed_request_delta {st : AppState} {d : Draws} {faults : List Bool} {headers : HeaderMap}
    {form : Option (List (String × String))} {req : Request} {db : Db} {e : AppError}
    (hu : db.Unique) (hreq : ClientRequest headers form req)
    (he : (serve st d faults req db).1.body = .oauthError e) :
    ErrorDelta st d db req (true ∈ faults) e (serve st d faults req db).2 ∧
      (Harmless st d (authorizationHeader headers) (form.getD []) db e →
        (serve st d faults req db).2 = db) :=
  have hdelta := clientRequest_errorDelta hu hreq he
  ⟨hdelta, hdelta.eq_of_harmless hu hreq⟩

theorem failed_request_delta_replay :
    ErrorDelta Sample.state (Sample.draws 6) Sample.exchanged
        (Sample.exchange Sample.clientB.clientId) (true ∈ ([] : List Bool))
        (.invalidGrant "authorization code has already been used")
        (serve Sample.state (Sample.draws 6) [] (Sample.exchange Sample.clientB.clientId)
          Sample.exchanged).2 ∧
      (Harmless Sample.state (Sample.draws 6) none (Sample.exchangeForm Sample.clientB.clientId)
          Sample.exchanged (.invalidGrant "authorization code has already been used") →
        (serve Sample.state (Sample.draws 6) [] (Sample.exchange Sample.clientB.clientId)
          Sample.exchanged).2 = Sample.exchanged) :=
  failed_request_delta Sample.served_exchanged.run.unique .token
    (Sample.error?_eq_some Sample.serve_replay.1)

end SharpOauth
