import SharpOauth.Provenance

/-! # The redemption of authorization codes

Which `grant_type=authorization_code` requests return tokens, in a run without storage and signing
failures in which SHA-256 does not collide (`Smooth`).

One exchange succeeds exactly when it finds an unused row that fits, and leaves no unused row
behind (`Token.CodeEffect.spec`).  A row is unused as long as nobody has presented its code
(`Run.unused_iff`), so that the history decides (`redeems_iff`). -/

namespace SharpOauth

open Token Authorization

/-! ### One exchange -/

/-- What an exchange needs besides its code: no storage or signing failure, readable scopes, and
a new refresh token. -/
structure Ready (st : AppState) (d : Draws) (db : Db) : Prop where
  unique : db.Unique
  signs : ∀ typ payload, ∃ token, st.sign typ payload = .ok token
  scopes : ∀ c ∈ db.codes, ∃ scope, storedScope c.scope = .ok scope
  newToken : ∀ t ∈ db.refreshTokens, t.id ≠ d.uuid 2 ∧
    t.tokenHash ≠ st.hashToken (generateToken (d.secret 0))

section exchange

variable {st : AppState} {d : Draws} {client : OAuthClient} {params : Params} {flaky : Prop}
  {db db' : Db} {code uri verifier : String}

theorem signedTokens_total (hsigns : ∀ typ payload, ∃ token, st.sign typ payload = .ok token)
    (userId : Uuid) (scope : ScopeSet) (authTime : Instant) (nonce : Option String) :
    ∃ response, signedTokens st d client userId scope authTime nonce = .ok response := by
  obtain ⟨accessToken, haccess⟩ := hsigns Access.jwtType
    (Access.AccessTokenClaims.new st.issuer userId client.clientId scope authTime d.now
      (d.uuid 0)).payload
  obtain ⟨idToken, hid⟩ := hsigns IdToken.jwtType
    (IdToken.IdTokenClaims.new st.issuer userId client.clientId authTime nonce d.now).payload
  rw [signedTokens]
  simp only [Access.issue, IdToken.issue, haccess, hid, Except.mapError]
  split_ifs <;> exact ⟨_, rfl⟩

/-- **One exchange**: it leaves the code used, and answers with tokens exactly when an unused row
fits. -/
theorem Token.CodeEffect.spec {r : Except AppError TokenResponse}
    (h : CodeEffect st d client params flaky db r db') (hflaky : ¬flaky) (hready : Ready st d db)
    (hp : Presents params code uri verifier) :
    (∀ c ∈ db'.codes, c.codeHash = st.hashToken code → c.usedAt ≠ none) ∧
      ((∃ tokens, r = .ok tokens) ↔ ∃ record, Unused db (st.hashToken code) record ∧
        checkCodeBindings st.toCrates record client uri verifier d.now = .ok ()) := by
  -- Claiming the code leaves no unused row with its hash.
  have hclaimed (hcodes : db'.codes = db.codes.map (·.claim (st.hashToken code) d.now)) :
      ∀ c ∈ db'.codes, c.codeHash = st.hashToken code → c.usedAt ≠ none := by
    intro c' hc' hhash
    rw [hcodes] at hc'
    obtain ⟨c, hc, rfl⟩ := List.mem_map.1 hc'
    rw [AuthorizationCode.claim] at hhash ⊢
    split_ifs at hhash ⊢ with hclaim
    · simp
    · exact fun hunused => hclaim ⟨hhash, hunused⟩
  have hone {record record' : AuthorizationCode} (hu : Unused db (st.hashToken code) record)
      (hu' : Unused db (st.hashToken code) record') : record = record' :=
    hready.unique.eq (t := .codes) hu.mem hu'.mem (by simp [clash, hu.hash, hu'.hash])
  have herror (e : AppError) :
      ¬∃ tokens, (.error e : Except AppError TokenResponse) = .ok tokens := by
    rintro ⟨_, h⟩
    cases h
  cases h with
  | incomplete e h => exact absurd hp (h code uri verifier)
  | failed e h => exact absurd h hflaky
  | unknown hp' h =>
      cases hp.code.symm.trans hp'.code
      refine ⟨fun c hc hhash => absurd hhash (h c hc), iff_of_false (herror _) ?_⟩
      rintro ⟨record, hu, -⟩
      exact h record hu.mem hu.hash
  | replayed hp' used hmem hhash h =>
      cases hp.code.symm.trans hp'.code
      refine ⟨fun c hc => ?_, iff_of_false (herror _) ?_⟩
      · rw [Db.codes, Db.after_of_writes _ (by simp [Stmt.writes])] at hc
        exact h c hc
      · rintro ⟨record, hu, -⟩
        exact h record hu.mem hu.hash hu.unused
  | rejected hp' record hu e h =>
      cases hp.code.symm.trans hp'.code
      cases hp.redirectUri.symm.trans hp'.redirectUri
      cases hp.codeVerifier.symm.trans hp'.codeVerifier
      refine ⟨hclaimed (Db.after_codesClaim _ _ _), iff_of_false (herror _) ?_⟩
      rintro ⟨record', hu', hb⟩
      rw [hone hu' hu, h] at hb
      cases hb
  | unsigned hp' record hu hb e h =>
      obtain ⟨scope, hscope⟩ := hready.scopes record hu.mem
      obtain ⟨response, hsigned⟩ := signedTokens_total hready.signs record.userId scope
        record.authTime record.nonce
      exact absurd hsigned (h scope response hscope)
  | duplicate hp' record hu hb e t ht h =>
      obtain ⟨hid, hhash⟩ := hready.newToken t ht
      rcases h with h | h
      · exact absurd h.symm hid
      · exact absurd h.symm hhash
  | redeemed hp' record hu hb =>
      cases hp.code.symm.trans hp'.code
      cases hp.redirectUri.symm.trans hp'.redirectUri
      cases hp.codeVerifier.symm.trans hp'.codeVerifier
      exact ⟨hclaimed (Db.after_codesClaim _ _ _), fun _ => ⟨record, hu, hb⟩, fun _ => ⟨_, rfl⟩⟩
  | redeemedOffline hp' record hu hb scope hscope hoffline response hsigned hinsert =>
      cases hp.code.symm.trans hp'.code
      cases hp.redirectUri.symm.trans hp'.redirectUri
      cases hp.codeVerifier.symm.trans hp'.codeVerifier
      refine ⟨hclaimed ((Db.after_of_writes _ ?_).trans (Db.after_codesClaim _ _ _)),
        fun _ => ⟨record, hu, hb⟩, fun _ => ⟨_, rfl⟩⟩
      simp [Stmt.writes]

/-- An exchange that answers with tokens was complete. -/
theorem Token.CodeEffect.presents {tokens : TokenResponse}
    (h : CodeEffect st d client params flaky db (.ok tokens) db') :
    ∃ code uri verifier, Presents params code uri verifier := by
  cases h with
  | redeemed hp => exact ⟨_, _, _, hp⟩
  | redeemedOffline hp => exact ⟨_, _, _, hp⟩

end exchange

section events

variable {st : AppState} {e : Event} {headers : HeaderMap} {pairs : List (String × String)}
  {params : Params} {client : OAuthClient} {code uri verifier : String}

/-- The same for the request of an event. -/
theorem Event.redeem_spec (hreq : e.req = .token headers (some pairs))
    (hl : Login st e.before (authorizationHeader headers) pairs params client)
    (hg : params.get "grant_type" = some "authorization_code") (hcalm : true ∉ e.faults)
    (hready : Ready st e.draws e.before) (hp : Presents params code uri verifier) :
    (∀ c ∈ (e.after st).codes, c.codeHash = st.hashToken code → c.usedAt ≠ none) ∧
      ((∃ tokens, (e.answer st).body = .tokens tokens) ↔
        ∃ record, Unused e.before (st.hashToken code) record ∧
          checkCodeBindings st.toCrates record client uri verifier e.draws.now = .ok ()) := by
  obtain ⟨r, hr, heffect⟩ := serve_token st e.draws headers pairs e.faults e.before
  rw [← hreq] at hr heffect
  rw [Event.answer, hr, Event.after]
  generalize (serve st e.draws e.faults e.req e.before).2 = db' at heffect ⊢
  cases heffect with
  | failed e' h => exact absurd h hcalm
  | refused e' h => exact absurd (GrantType.parse_eq_ok.2 hg) (h params client hl .authorizationCode)
  | refresh params' client' hl' hg' =>
      obtain ⟨rfl, rfl⟩ := hl.eq hl'
      exact absurd (hg.symm.trans (GrantType.parse_eq_ok.1 hg')) (by simp)
  | code params' client' hl' hg' r db' h =>
      obtain ⟨rfl, rfl⟩ := hl.eq hl'
      obtain ⟨hused, hiff⟩ := h.spec hcalm hready hp
      refine ⟨hused, Iff.trans ?_ hiff⟩
      cases r with
      | error e' => simp [tokenResponse, AppError.intoResponse]
      | ok tokens => simp [tokenResponse]

/-- Only a complete presentation of a code is answered with tokens. -/
theorem Event.tokens_presents (e : Event) (hreq : e.req = .token headers (some pairs))
    (hg : ∀ {params : Params}, Params.fromPairs pairs = .ok params →
      params.get "grant_type" = some "authorization_code")
    {tokens : TokenResponse} (hbody : (e.answer st).body = .tokens tokens) :
    ∃ params client, Login st e.before (authorizationHeader headers) pairs params client ∧
      ∃ code uri verifier, Presents params code uri verifier := by
  obtain ⟨r, hr, heffect⟩ := serve_token st e.draws headers pairs e.faults e.before
  rw [← hreq] at hr heffect
  rw [Event.answer, hr] at hbody
  generalize (serve st e.draws e.faults e.req e.before).2 = db' at heffect
  cases heffect with
  | failed => cases hbody
  | refused => cases hbody
  | refresh params client hl hg' =>
      exact absurd ((hg hl.params_ok).symm.trans (GrantType.parse_eq_ok.1 hg')) (by simp)
  | code params client hl hg' r db' h =>
      cases r with
      | error e' => cases hbody
      | ok tokens => exact ⟨params, client, hl, h.presents⟩

/-- A presented code is used afterwards. -/
theorem Presented.used (h : Presented st e code) (hcalm : true ∉ e.faults)
    (hready : Ready st e.draws e.before) :
    ∀ c ∈ (e.after st).codes, c.codeHash = st.hashToken code → c.usedAt ≠ none := by
  cases h with
  | intro headers pairs hreq params client hl hg uri verifier hp =>
      exact (Event.redeem_spec hreq hl hg hcalm hready hp).1

end events

/-! ### The history of a code -/

/-- The codes and refresh tokens of a run: the drawn ones, and the presented ones. -/
inductive Occurs (st : AppState) (es : List Event) (s : String) : Prop where
  | drawn (e : Event) (he : e ∈ es) (h : s = generateToken (e.draws.secret 0))
  | presented (e : Event) (he : e ∈ es) (h : Presented st e s)

/-- No storage or signing failure, and no collision of SHA-256. -/
structure Smooth (st : AppState) (es : List Event) : Prop where
  calm : ∀ e ∈ es, true ∉ e.faults
  signs : ∀ typ payload, ∃ token, st.sign typ payload = .ok token
  injective : ∀ s s', Occurs st es s → Occurs st es s' →
    st.sha256 (utf8 s) = st.sha256 (utf8 s') → s = s'

section history

variable {st : AppState} {es earlier later : List Event} {db : Db} {e : Event}

theorem Occurs.mono {es' : List Event} {s : String} (h : Occurs st es s) (hes : es ⊆ es') :
    Occurs st es' s := by
  cases h with
  | drawn e he h => exact .drawn e (hes he) h
  | presented e he h => exact .presented e (hes he) h

theorem Smooth.mono {es' : List Event} (h : Smooth st es') (hes : es ⊆ es') : Smooth st es :=
  ⟨fun e he => h.calm e (hes he), h.signs,
    fun s s' hs hs' => h.injective s s' (hs.mono hes) (hs'.mono hes)⟩

theorem Smooth.hash_inj (h : Smooth st es) {s s' : String} (hs : Occurs st es s)
    (hs' : Occurs st es s') (heq : st.hashToken s = st.hashToken s') : s = s' :=
  h.injective s s' hs hs' (Vector.toList_inj.1 (base64url_inj heq))

theorem TokenOrigin.hash {i : Issuance st} {t : RefreshToken} (h : TokenOrigin i es t) :
    ∃ e ∈ es, t.tokenHash = st.hashToken (generateToken (e.draws.secret 0)) := by
  cases h with
  | intro mid e h tokens hbody hissued t hhash hgrant =>
      exact ⟨e, List.mem_append_right _ List.mem_cons_self, hhash⟩

/-- SHA-256 tells the next code or refresh token from the earlier ones. -/
def NoCollision (st : AppState) (es : List Event) (d : Draws) : Prop :=
  ∀ e ∈ es, st.hashToken (generateToken (e.draws.secret 0)) ≠
    st.hashToken (generateToken (d.secret 0))

/-- Every request of a smooth run can exchange codes. -/
theorem Run.ready (run : Run st (e :: es) db) (hs : Smooth st (e :: es)) :
    Ready st e.draws e.before := by
  obtain ⟨hbefore, hfresh, -⟩ := run.cons
  refine ⟨hbefore.unique, hs.signs, fun c hc => ?_, fun t ht => ⟨fun hid => ?_, fun hhash => ?_⟩⟩
  · obtain ⟨i, -, hrow⟩ := hbefore.code_origin c hc
    rw [hrow]
    exact ⟨_, i.storedScope_row⟩
  · obtain ⟨e', he', k, hk⟩ := hbefore.familyInv.id_drawn t ht
    exact hfresh.uuid_new e' he' k 2 (hk.trans hid)
  · obtain ⟨i, hi⟩ := hbefore.token_origin t ht
    obtain ⟨e', he', hhash'⟩ := hi.hash
    have heq := hs.hash_inj (.drawn e' (List.mem_cons_of_mem _ he') rfl) (.drawn e List.mem_cons_self rfl)
      (hhash'.symm.trans hhash)
    exact hfresh.secret_new e' he' 0 0 (generateToken_inj heq)

/-- **A row is unused as long as nobody has presented its code.** -/
theorem Run.unused_iff (run : Run st es db) (hs : Smooth st es) : ∀ (i : Issuance st)
    (mid older : List Event), es = mid ++ i.event :: older → ∀ c ∈ db.codes,
    c.id = i.event.draws.uuid 0 → (c.usedAt = none ↔ ∀ e' ∈ mid, ¬Presented st e' i.code) := by
  induction run with
  | init => exact fun i mid older h => absurd h (by simp)
  | @step es db run req d faults fresh ih =>
      set e : Event := ⟨req, d, faults, db, (serve st d faults req db).1⟩ with he
      have run' : Run st (e :: es) (e.after st) := run.step req d faults fresh
      intro i mid older hsplit c' hc' hid
      -- A row that the request found was drawn before.
      have hold (c : AuthorizationCode) (hc : c ∈ db.codes) (hcid : c.id = d.uuid 0) : False := by
        obtain ⟨e', he', h⟩ := run.code_drawn c hc
        exact fresh.uuid_new e' he' 0 0 (h.trans hcid)
      cases mid with
      | nil =>
          -- The code is new.
          obtain ⟨hevent, -⟩ := List.cons.inj hsplit
          rw [← hevent] at hid
          simp only [List.not_mem_nil, false_imp_iff, implies_true, iff_true]
          rcases e.code_row st c' hc' with hc | ⟨c, hc⟩ | ⟨j, -, rfl⟩
          · exact (hold c' hc hid).elim
          · exact (hold c hc.mem (by rw [← hid, hc.eq])).elim
          · rfl
      | cons x mid =>
          obtain ⟨rfl, htail⟩ := List.cons.inj hsplit
          have hi : i.event ∈ es := by
            rw [htail]
            exact List.mem_append_right _ List.mem_cons_self
          have hsplit' := ih (hs.mono (List.subset_cons_self _ _)) i mid older htail
          have hcalm := hs.calm e List.mem_cons_self
          have hhash : c'.codeHash = st.hashToken i.code := by
            rw [run'.row_of_id (List.mem_cons_of_mem _ hi) hc' hid]
            rfl
          simp only [List.mem_cons, forall_eq_or_imp]
          constructor
          · intro hunused
            refine ⟨fun hpresented => ?_, ?_⟩
            · exact hpresented.used hcalm (run'.ready hs) c' hc' hhash hunused
            · rcases e.code_row st c' hc' with hc | ⟨c, hc⟩ | ⟨j, hj, rfl⟩
              · exact (hsplit' c' hc hid).1 hunused
              · rw [hc.eq] at hunused
                cases hunused
              · have hjid : d.uuid 0 = i.event.draws.uuid 0 := by
                  rw [← hid, show d = j.event.draws by rw [hj]]
                  rfl
                exact absurd hjid.symm (fresh.uuid_new i.event hi 0 0)
          · rintro ⟨hnot, hmid⟩
            rcases e.code_row st c' hc' with hc | ⟨c, hc⟩ | ⟨j, -, rfl⟩
            · exact (hsplit' c' hc hid).2 hmid
            · -- The request used the row up, so it presented the code.
              obtain ⟨code, hpresented, hcode⟩ := hc.presented
              have hchash : c.codeHash = st.hashToken i.code := by rw [← hhash, hc.eq]
              have heq := hs.hash_inj (.presented e List.mem_cons_self hpresented)
                (.drawn i.event (List.mem_cons_of_mem _ hi) rfl) (hcode.symm.trans hchash)
              rw [heq] at hpresented
              exact absurd hpresented hnot
            · rfl

end history

/-! ### Redemption -/

/-- A request that may exchange a code: a client, authenticated by a request that repeats no
parameter, is the first to present a code that was issued to it less than 60 seconds ago, with the
redirect URI and the preimage of the challenge of the authorization request. -/
inductive Redeems (st : AppState) (earlier : List Event) (e : Event) (headers : HeaderMap)
    (pairs : List (String × String)) : Prop where
  | intro (params : Params) (client : OAuthClient)
      (hl : Login st e.before (authorizationHeader headers) pairs params client) (i : Issuance st)
      (uri verifier : String) (hp : Presents params i.code uri verifier)
      (hclient : i.validated.client.id = client.id) (mid older : List Event)
      (hissued : earlier = mid ++ i.event :: older) (hfirst : ∀ e' ∈ mid, ¬Presented st e' i.code)
      (htime : e.draws.now < i.event.draws.now + Duration.seconds 60)
      (huri : i.params.get "redirect_uri" = some uri)
      (hlength : 43 ≤ verifier.toList.length ∧ verifier.toList.length ≤ 128)
      (hchars : ∀ c ∈ verifier.toList, Pkce.Unreserved c)
      (hchallenge : i.params.get "code_challenge" =
        some (base64url (st.sha256 (utf8 verifier)).toList))

section redemption

variable {st : AppState} {earlier later : List Event} {db : Db} {e : Event}

/-- The bindings of the row of an issuance, in terms of its request. -/
theorem Issuance.bindings_iff (i : Issuance st) (usedAt : Option Instant) {client : OAuthClient}
    {uri verifier : String} {now : Instant} :
    checkCodeBindings st.toCrates { i.row with usedAt } client uri verifier now = .ok () ↔
      i.validated.client.id = client.id ∧ now < i.event.draws.now + Duration.seconds 60 ∧
        i.params.get "redirect_uri" = some uri ∧
        (43 ≤ verifier.toList.length ∧ verifier.toList.length ≤ 128) ∧
        (∀ c ∈ verifier.toList, Pkce.Unreserved c) ∧
        i.params.get "code_challenge" = some (base64url (st.sha256 (utf8 verifier)).toList) := by
  have huri : i.params.get "redirect_uri" = some i.validated.redirectUri :=
    i.valid.redirectable.redirectUri
  obtain ⟨-, -, -, -, -, -, -, hchallenge, -⟩ := checkRequest_ok i.valid.checked
  have hchallenge : i.params.get "code_challenge" = some i.validated.codeChallenge := hchallenge
  rw [checkCodeBindings_ok_iff, Pkce.verifyS256_iff, Pkce.isValidVerifier_iff, huri, hchallenge,
    Option.some.injEq, Option.some.injEq]
  constructor
  · rintro ⟨hclient, htime, huri, -, ⟨hmin, hmax, hchars⟩, hchallenge⟩
    exact ⟨hclient, htime, huri, ⟨hmin, hmax⟩, hchars, hchallenge.symm⟩
  · rintro ⟨hclient, htime, huri, ⟨hmin, hmax⟩, hchars, hchallenge⟩
    exact ⟨hclient, htime, huri, rfl, ⟨hmin, hmax, hchars⟩, hchallenge.symm⟩

/-- **The redemption of codes is sound and complete.** -/
theorem redeems_iff (run : Run st (later ++ e :: earlier) db) (hs : Smooth st (later ++ e :: earlier))
    {headers : HeaderMap} {pairs : List (String × String)}
    (hreq : e.req = .token headers (some pairs))
    (hgrant : ("grant_type", "authorization_code") ∈ pairs) :
    (∃ tokens, e.response.body = .tokens tokens) ↔ Redeems st earlier e headers pairs := by
  obtain ⟨db', run'⟩ := run.upTo
  have hs' : Smooth st (e :: earlier) := hs.mono (List.subset_append_right _ _)
  obtain ⟨hbefore, -, hresponse, -⟩ := run'.cons
  have hready := run'.ready hs'
  have hcalm := hs'.calm e List.mem_cons_self
  have hg {params : Params} (hp : Params.fromPairs pairs = .ok params) :
      params.get "grant_type" = some "authorization_code" := Params.get_of_mem hp hgrant (by decide)
  rw [hresponse]
  constructor
  · rintro ⟨tokens, hbody⟩
    obtain ⟨params, client, hl, code, uri, verifier, hp⟩ := e.tokens_presents hreq hg hbody
    have hg := hg hl.params_ok
    obtain ⟨record, hu, hb⟩ := (Event.redeem_spec hreq hl hg hcalm hready hp).2.1 ⟨tokens, hbody⟩
    obtain ⟨i, hi, hrow⟩ := hbefore.code_origin record hu.mem
    obtain ⟨mid, older, rfl⟩ := List.append_of_mem hi
    have hcode : code = i.code := by
      refine hs'.hash_inj (.presented e List.mem_cons_self ?_)
        (.drawn i.event (List.mem_cons_of_mem _ hi) rfl) ?_
      · exact .intro headers pairs hreq params client hl hg uri verifier hp
      · rw [← hu.hash, hrow]
        rfl
    subst hcode
    rw [hrow] at hb
    obtain ⟨hclient, htime, huri, hlength, hchars, hchallenge⟩ := (i.bindings_iff _).1 hb
    have hfirst := (hbefore.unused_iff (hs'.mono (List.subset_cons_self _ _)) i mid older rfl record
      hu.mem (by rw [hrow]; rfl)).1 hu.unused
    exact .intro params client hl i uri verifier hp hclient mid older rfl hfirst htime huri hlength
      hchars hchallenge
  · rintro ⟨params, client, hl, i, uri, verifier, hp, hclient, mid, older, rfl, hfirst, htime, huri,
      hlength, hchars, hchallenge⟩
    have hi : i.event ∈ mid ++ i.event :: older := List.mem_append_right _ List.mem_cons_self
    obtain ⟨credentials, -, hauth⟩ := hl.authenticated
    have hkept : i.validated.client.id ∈ e.before.clientIds := by
      rw [hclient]
      exact List.mem_map_of_mem hauth.mem
    obtain ⟨c, hc, hid⟩ := hbefore.code_kept i hi hkept
    have hrow := hbefore.row_of_id hi hc hid
    refine (Event.redeem_spec hreq hl (hg hl.params_ok) hcalm hready hp).2.2 ⟨c, ⟨hc, ?_, ?_⟩, ?_⟩
    · rw [hrow]
      rfl
    · exact (hbefore.unused_iff (hs'.mono (List.subset_cons_self _ _)) i mid older rfl c hc hid).2
        hfirst
    · rw [hrow]
      exact (i.bindings_iff _).2 ⟨hclient, htime, huri, hlength, hchars, hchallenge⟩

end redemption

namespace Sample

/-- The codes and refresh tokens drawn up to the exchange. -/
def drawn : List String := [5, 4, 3, 2, 1].map fun n => generateToken ((draws n).secret 0)

theorem presented_code {s : String}
    (h : Presented state (event 5 (exchange clientA.clientId) issued) s) :
    s = "DAwMDAwMDAwMDAwMDAwMDAwMDAwMDAwMDAwMDAwMDAw" := by
  obtain ⟨headers, pairs, hreq, params, client, hl, hg, uri, verifier, hp⟩ := h
  cases hreq
  have hcode : params.get "code" = some "DAwMDAwMDAwMDAwMDAwMDAwMDAwMDAwMDAwMDAwMDAw" :=
    Params.get_of_mem hl.params_ok (by simp [exchangeForm]) (by decide)
  exact Option.some.inj (hp.code.symm.trans hcode)

theorem occurs_drawn {s : String} (h : Occurs state authorizations s) : s ∈ drawn := by
  cases h with
  | drawn e he h =>
      simp only [authorizations, registrations, List.cons_append, List.nil_append, List.mem_cons,
        List.not_mem_nil, or_false] at he
      rcases he with rfl | rfl | rfl | rfl | rfl <;> simp [drawn, h, event]
  | presented e he h =>
      simp only [authorizations, registrations, List.cons_append, List.nil_append, List.mem_cons,
        List.not_mem_nil, or_false] at he
      rcases he with rfl | rfl | rfl | rfl | rfl
      · rw [presented_code h]
        decide +kernel
      all_goals
        obtain ⟨headers, pairs, hreq, -⟩ := h
        cases hreq

theorem smooth : Smooth state authorizations where
  calm e he := by
    simp only [authorizations, registrations, List.cons_append, List.nil_append, List.mem_cons,
      List.not_mem_nil, or_false] at he
    rcases he with rfl | rfl | rfl | rfl | rfl <;> exact List.not_mem_nil
  signs _ _ := ⟨_, rfl⟩
  injective s s' hs hs' h := by
    have hall : ∀ s ∈ drawn, ∀ s' ∈ drawn, state.sha256 (utf8 s) = state.sha256 (utf8 s') → s = s' := by
      decide +kernel
    exact hall s (occurs_drawn hs) s' (occurs_drawn hs') h

end Sample

theorem redeems_iff_exchange :
    (∃ tokens, (Sample.event 5 (Sample.exchange Sample.clientA.clientId) Sample.issued).response.body =
        .tokens tokens) ↔
      Redeems Sample.state Sample.approvals
        (Sample.event 5 (Sample.exchange Sample.clientA.clientId) Sample.issued) Sample.noHeaders
        (Sample.exchangeForm Sample.clientA.clientId) :=
  redeems_iff Sample.run_exchanged Sample.smooth rfl (by decide)

end SharpOauth
