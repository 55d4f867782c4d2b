import SharpOauth.ClientAuthentication
import SharpOauth.Cookies
import SharpOauth.ParallelPrograms
import SharpOauth.TokenSafety

/-! # The secrets that a request draws

Session tokens, authorization codes, refresh tokens and client secrets are drawn for a request and
leave the server in its response; what the server stores of them is their SHA-256 hash.

Stated for two servers that answer the same request, draw different secrets for it and hash with
different functions.  If their hash functions give the same hashes for what each of them draws, and
agree on what the request presents to be looked up, then the request leaves the same tables behind
in both (`serve_hides`): the tables would be the same if the secrets drawn had been others.  CSRF tokens
may differ in any way, they are not stored at all.  Only the identifier of a new client, which is
public and drawn like a secret, has to be the same.

The secrets that the request itself presents are the same on both sides; nothing is said about
them. -/

namespace SharpOauth

open Prog Token

/-- The server with another hash function. -/
def AppState.withHash (st : AppState) (sha : List UInt8 → Vector UInt8 32) : AppState :=
  { st with sha256 := sha }

/-- The draws with other secrets. -/
def Draws.withSecrets (d : Draws) (secret : Fin 3 → Vector UInt8 32) : Draws := { d with secret }

/-- Secrets that the server could have drawn instead: other tokens that the other function hashes like
the first one hashes those drawn, and any third one (which is the CSRF token). -/
structure SameHashes (st : AppState) (sha : List UInt8 → Vector UInt8 32)
    (secret secret' : Fin 3 → Vector UInt8 32) : Prop where
  token : sha (utf8 (generateToken (secret' 0))) = st.sha256 (utf8 (generateToken (secret 0)))
  clientSecret : sha (utf8 (Client.newClientSecret (secret' 1))) =
    st.sha256 (utf8 (Client.newClientSecret (secret 1)))

/-- The requests that register a client. -/
inductive Request.CreatesClient : Request → Prop where
  | appCreate (headers : HeaderMap) (pairs : List (String × String)) :
      (Request.appCreate headers pairs).CreatesClient
  | createClient (name : String) (redirectUris : List String) (scopes : String) (isPublic : Bool) :
      (Request.createClient name redirectUris scopes isPublic).CreatesClient

/-- Texts with the same hash under both functions. -/
def AppState.HashesLike (st : AppState) (sha : List UInt8 → Vector UInt8 32) (texts : List String) :
    Prop := ∀ text ∈ texts, sha (utf8 text) = st.sha256 (utf8 text)

/-- The session cookie of a browser. -/
def presentedCookie (headers : HeaderMap) : List String :=
  (CookieManager.get headers Session.sessionCookie).toList

/-- What a client presents: the values of its form, and a secret in its `Authorization` header. -/
def presentedFields (header : Option String) (pairs : List (String × String)) : List String :=
  ((header.bind Client.parseBasicAuthorization).map Prod.snd).toList ++ pairs.map Prod.snd

/-- The texts of a request that the server may look up by their hash. -/
def Request.presented : Request → List String
  | .token headers form | .revoke headers form =>
      presentedFields (authorizationHeader headers) (form.getD [])
  | req => (req.headers?.map presentedCookie).getD []

section handlers

variable {st : AppState} {sha : List UInt8 → Vector UInt8 32} {d : Draws}
  {secret : Fin 3 → Vector UInt8 32} {headers : HeaderMap} {ε α : Type}

theorem AppState.HashesLike.hashToken {texts : List String} (h : st.HashesLike sha texts) {text : String}
    (hmem : text ∈ texts) : (st.withHash sha).hashToken text = st.hashToken text := by
  simp [Crates.hashToken, AppState.withHash, h text hmem]

theorem AppState.HashesLike.mono {texts texts' : List String} (h : st.HashesLike sha texts)
    (hsub : texts' ⊆ texts) : st.HashesLike sha texts' := fun text hmem => h text (hsub hmem)

/-- The new token's hash is the same. -/
theorem SameHashes.hashToken (h : SameHashes st sha d.secret secret) :
    (st.withHash sha).hashToken (generateToken ((d.withSecrets secret).secret 0)) =
      st.hashToken (generateToken (d.secret 0)) := by
  simp [Crates.hashToken, AppState.withHash, Draws.withSecrets, h.token]

/-- The new client secret's hash is the same. -/
theorem SameHashes.hashSecret (h : SameHashes st sha d.secret secret) :
    (st.withHash sha).hashToken (Client.newClientSecret ((d.withSecrets secret).secret 1)) =
      st.hashToken (Client.newClientSecret (d.secret 1)) := by
  simp [Crates.hashToken, AppState.withHash, Draws.withSecrets, h.clientSecret]

/-- A program without calls. -/
theorem parallel_ret (a a' : α) :
    (Prog.ret a : Service ε α).Parallel (fun _ _ => True) (Prog.ret a') := .ret True.intro

/-- The same program, whatever is made of its result. -/
theorem parallel_eq {p p' : Service ε α} (h : p = p') : p.Parallel (fun _ _ => True) p' := by
  rw [← h]
  exact parallel_self (fun _ => True.intro) p

/-- Attempted, matched and answered. -/
theorem parallel_answer {β ε' : Type} {p p' : Service ε α} {R : α → α → Prop} (h : p.Parallel R p')
    {f f' : Except ε α → Service ε' β}
    (hf : ∀ r r', Matched R r r' → (f r).Parallel (fun _ _ => True) (f' r')) :
    (Prog.bind p.attempt f).Parallel (fun _ _ => True) (Prog.bind p'.attempt f') :=
  parallel_bind (parallel_attempt h) hf

theorem orInternalError_parallel {p p' : Service AppError Response}
    (h : p.Parallel (fun _ _ => True) p') :
    (orInternalError p).Parallel (fun _ _ => True) (orInternalError p') :=
  parallel_answer h fun r r' h => by cases h <;> exact parallel_ret _ _

theorem currentSession_withSecrets (hlike : st.HashesLike sha (presentedCookie headers)) :
    currentSession (st.withHash sha).toCrates (d.withSecrets secret) headers =
      currentSession st.toCrates d headers := by
  unfold currentSession
  cases hcookie : CookieManager.get headers Session.sessionCookie with
  | none => rfl
  | some token =>
      have hhash : (st.withHash sha).hashToken token = st.hashToken token :=
        hlike.hashToken (by simp [presentedCookie, hcookie])
      simp only [Session.findActive]
      rw [hhash]
      show Prog.bind _ _ = Prog.bind _ _
      congr 1
      funext found
      cases found <;> rfl

/-! ### Sessions -/

theorem create_parallel (h : SameHashes st sha d.secret secret) (user : User) :
    (Session.create st.toCrates d user).Parallel (fun _ _ => True)
      (Session.create (st.withHash sha).toCrates (d.withSecrets secret) user) := by
  have hrow : Session.fresh (st.withHash sha).toCrates (d.withSecrets secret) user =
      Session.fresh st.toCrates d user := by
    simp only [Session.fresh, h.hashToken]
    rfl
  unfold Session.create
  rw [hrow]
  exact parallel_seq _ fun _ => parallel_ret _ _

theorem startSession_parallel (h : SameHashes st sha d.secret secret)
    (hlike : st.HashesLike sha (presentedCookie headers)) (user : User) (returnTo : String) :
    (Pages.startSession st d headers user returnTo).Parallel (fun _ _ => True)
      (Pages.startSession (st.withHash sha) (d.withSecrets secret) headers user returnTo) := by
  have hcreate := create_parallel h user
  simp only [Pages.startSession, Prog.bind_eq, Prog.pure_eq]
  cases hcookie : CookieManager.get headers Session.sessionCookie with
  | none => exact parallel_bind hcreate fun _ _ _ => parallel_ret _ _
  | some old =>
      have hrevoke : Session.revoke (st.withHash sha).toCrates (d.withSecrets secret) old =
          Session.revoke st.toCrates d old := by
        unfold Session.revoke
        rw [hlike.hashToken (by simp [presentedCookie, hcookie])]
        rfl
      simp only [hrevoke]
      exact parallel_seq _ fun _ => parallel_bind hcreate fun _ _ _ => parallel_ret _ _

theorem signIn_parallel (h : SameHashes st sha d.secret secret)
    (hlike : st.HashesLike sha (presentedCookie headers)) (form : SignInForm) :
    (Pages.signIn st d headers form).Parallel (fun _ _ => True)
      (Pages.signIn (st.withHash sha) (d.withSecrets secret) headers form) := by
  simp only [Pages.signIn, Prog.bind_eq, Prog.pure_eq]
  split_ifs
  · exact parallel_ret _ _
  · refine parallel_seq (Account.authenticate st form.email form.password) fun user => ?_
    cases user with
    | none => exact parallel_ret _ _
    | some user => exact startSession_parallel h hlike user _

theorem signUp_parallel (h : SameHashes st sha d.secret secret)
    (hlike : st.HashesLike sha (presentedCookie headers)) (form : SignUpForm) :
    (Pages.signUp st d headers form).Parallel (fun _ _ => True)
      (Pages.signUp (st.withHash sha) (d.withSecrets secret) headers form) := by
  simp only [Pages.signUp, Prog.bind_eq, Prog.pure_eq]
  split_ifs
  · exact parallel_ret _ _
  · refine parallel_seq (Prog.attempt (Account.signUp st.toCrates d _)) fun r => ?_
    cases r with
    | ok user => exact startSession_parallel h hlike user _
    | error e => cases e <;> first | exact .fail _ | exact parallel_ret _ _

/-! ### Authorization codes -/

theorem issueCode_parallel (h : SameHashes st sha d.secret secret)
    (v : Authorization.ValidatedRequest) (user : User) (session : Session) :
    (Authorization.issueCode st d v user session).Parallel (fun _ _ => True)
      (Authorization.issueCode (st.withHash sha) (d.withSecrets secret) v user session) := by
  have hrow : Authorization.newCode (st.withHash sha).toCrates (d.withSecrets secret) v user session =
      Authorization.newCode st.toCrates d v user session := by
    simp only [Authorization.newCode, h.hashToken]
    rfl
  have hparse : (st.withHash sha).parseUrl = st.parseUrl := rfl
  simp only [Authorization.issueCode, Prog.bind_eq]
  rw [hrow]
  refine parallel_seq _ fun _ => parallel_ofExcept ?_
  simp only [Authorization.redirectWithParams, hparse]
  cases st.parseUrl v.redirectUri with
  | none => exact .error _
  | some url => exact .ok True.intro

theorem decide_parallel (h : SameHashes st sha d.secret secret)
    (r : Authorization.AuthorizationRequest) (signedIn : Option (Session × User)) :
    (Authorization.decide st d r signedIn).Parallel (fun _ _ => True)
      (Authorization.decide (st.withHash sha) (d.withSecrets secret) r signedIn) := by
  have hnow : (d.withSecrets secret).now = d.now := rfl
  simp only [Authorization.decide, Prog.bind_eq, Prog.pure_eq, hnow]
  refine parallel_seq _ fun v => ?_
  cases signedIn.filter fun s => !Authorization.needsReauthentication v s.1 d.now with
  | none => exact parallel_eq rfl
  | some s =>
      refine parallel_seq _ fun granted => ?_
      split_ifs
      · exact parallel_bind (parallel_lift (issueCode_parallel h v s.2 s.1)) fun _ _ _ => parallel_ret _ _
      · exact .fail _
      · exact parallel_seq _ fun _ => parallel_ret _ _

theorem completeConsent_parallel (h : SameHashes st sha d.secret secret)
    (r : Authorization.AuthorizationRequest) (approved : Bool) (session : Session) (user : User) :
    (Authorization.completeConsent st d r approved session user).Parallel (fun _ _ => True)
      (Authorization.completeConsent (st.withHash sha) (d.withSecrets secret) r approved session
        user) := by
  simp only [Authorization.completeConsent, Prog.bind_eq]
  refine parallel_seq _ fun v => ?_
  split_ifs
  · exact .fail _
  · exact parallel_seq _ fun _ => parallel_lift (issueCode_parallel h v user session)

theorem authorize_parallel (h : SameHashes st sha d.secret secret)
    (hlike : st.HashesLike sha (presentedCookie headers)) (pairs : List (String × String)) :
    (authorize st d headers pairs).Parallel (fun _ _ => True)
      (authorize (st.withHash sha) (d.withSecrets secret) headers pairs) := by
  simp only [authorize, Prog.bind_eq, Prog.pure_eq, currentSession_withSecrets hlike]
  refine parallel_seq _ fun session => ?_
  cases Params.fromPairs pairs with
  | error e => exact parallel_ret _ _
  | ok params =>
      refine parallel_answer (decide_parallel h _ session) fun r r' hr => ?_
      cases hr with
      | error e => exact parallel_ret _ _
      | @ok a a' _ => cases a <;> cases a' <;> exact parallel_ret _ _

theorem consent_parallel (h : SameHashes st sha d.secret secret)
    (hlike : st.HashesLike sha (presentedCookie headers)) (pairs : List (String × String)) :
    (consent st d headers pairs).Parallel (fun _ _ => True)
      (consent (st.withHash sha) (d.withSecrets secret) headers pairs) := by
  simp only [consent, Prog.bind_eq, Prog.pure_eq, currentSession_withSecrets hlike]
  refine parallel_seq _ fun session => ?_
  cases Params.fromPairs pairs with
  | error e => exact parallel_ret _ _
  | ok params =>
      dsimp only
      split_ifs
      · exact parallel_ret _ _
      · cases session with
        | none => exact parallel_ret _ _
        | some s =>
            refine parallel_answer (completeConsent_parallel h _ _ s.1 s.2) fun r r' hr => ?_
            cases hr <;> exact parallel_ret _ _

/-! ### What clients present -/

section clients

variable {header : Option String} {pairs : List (String × String)} {params : Params}
  {client : OAuthClient}

/-- A field of the form. -/
theorem presented_field (hparams : Params.fromPairs pairs = .ok params) {name value : String}
    (hget : params.get name = some value) : value ∈ presentedFields header pairs :=
  List.mem_append_right _ (List.mem_map.2 ⟨_, ((Params.get_eq_some_iff hparams).1 hget).1, rfl⟩)

/-- The secret of the credentials is one of the texts presented. -/
theorem presented_secret (hparams : Params.fromPairs pairs = .ok params)
    {credentials : Client.ClientCredentials} {clientSecret : String}
    (hcredentials : Client.extractCredentials header params = .ok credentials)
    (hsecret : credentials.clientSecret = some clientSecret) :
    clientSecret ∈ presentedFields header pairs := by
  obtain ⟨id, given⟩ := credentials
  cases (Client.extractCredentials_ok_iff hparams).1 hcredentials with
  | basic header id secret hheader hbasic hform hid =>
      cases hsecret
      simp [presentedFields, hheader, hbasic]
  | post id secret hheader hid hform =>
      cases hsecret
      exact List.mem_append_right _ (List.mem_map.2 ⟨_, hform.1, rfl⟩)
  | idOnly => cases hsecret

end clients

/-- Credentials are accepted by both or by neither. -/
theorem authenticate_withHash {texts : List String} (hlike : st.HashesLike sha texts)
    (credentials : Client.ClientCredentials)
    (hmem : ∀ clientSecret, credentials.clientSecret = some clientSecret → clientSecret ∈ texts) :
    Client.authenticate (st.withHash sha).toCrates credentials =
      Client.authenticate st.toCrates credentials := by
  have haccepts (client : OAuthClient) :
      Client.accepts (st.withHash sha).toCrates client credentials.clientSecret =
        Client.accepts st.toCrates client credentials.clientSecret := by
    unfold Client.accepts
    cases hsecret : credentials.clientSecret with
    | none => rfl
    | some clientSecret => simp only [hlike.hashToken (hmem _ hsecret)]
  simp only [Client.authenticate, haccepts]

/-! ### Refresh tokens -/

theorem issue_parallel (h : SameHashes st sha d.secret secret) (new : Refresh.NewRefreshToken) :
    (Refresh.issue st.toCrates d new).Parallel (fun a a' => a.2 = a'.2)
      (Refresh.issue (st.withHash sha).toCrates (d.withSecrets secret) new) := by
  have hrow : Refresh.newRecord (st.withHash sha).toCrates (d.withSecrets secret) new =
      Refresh.newRecord st.toCrates d new := by
    simp only [Refresh.newRecord, h.hashToken]
    rfl
  simp only [Refresh.issue, Prog.bind_eq, Prog.pure_eq]
  rw [hrow]
  exact parallel_seq _ fun _ => .ret rfl

section exchanges

variable {texts : List String} {client : OAuthClient} {params : Params}

theorem exchangeAuthorizationCode_parallel (h : SameHashes st sha d.secret secret)
    (hlike : st.HashesLike sha texts) (hmem : ∀ name value, params.get name = some value → value ∈ texts) :
    (exchangeAuthorizationCode st d client params).Parallel (fun _ _ => True)
      (exchangeAuthorizationCode (st.withHash sha) (d.withSecrets secret) client params) := by
  have hnow : (d.withSecrets secret).now = d.now := rfl
  have huuid : (d.withSecrets secret).uuid = d.uuid := rfl
  have hsigned : signedTokens (st.withHash sha) (d.withSecrets secret) = signedTokens st d := rfl
  simp only [exchangeAuthorizationCode, Prog.bind_eq, Prog.pure_eq, hnow, huuid, hsigned]
  cases hcode : params.get "code" with
  | none => exact .fail _
  | some code =>
  cases huri : params.get "redirect_uri" with
  | none => exact .fail _
  | some uri =>
  cases hverifier : params.get "code_verifier" with
  | none => exact .fail _
  | some verifier =>
  have hbindings (record : AuthorizationCode) :
      checkCodeBindings (st.withHash sha).toCrates record client uri verifier d.now =
        checkCodeBindings st.toCrates record client uri verifier d.now := by
    have hsha := hlike verifier (hmem _ _ hverifier)
    simp [checkCodeBindings, Pkce.verifyS256, Pkce.s256Challenge, AppState.withHash, hsha]
  simp only [okOr_some, ret_bind, hbindings]
  rw [hlike.hashToken (hmem _ _ hcode)]
  refine parallel_seq _ fun _ => parallel_seq _ fun claimed => ?_
  cases claimed with
  | none => exact parallel_eq rfl
  | some record =>
      dsimp only
      cases checkCodeBindings st.toCrates record client uri verifier d.now with
      | error e => exact parallel_eq rfl
      | ok u =>
          refine parallel_seq _ fun scope => parallel_seq _ fun response => ?_
          split_ifs
          · have hissue := issue_parallel h
              ⟨d.uuid 1, some record.id, client.id, record.userId, record.scope, record.authTime⟩
            refine parallel_bind hissue fun _ _ _ => ?_
            exact parallel_seq Handler.commit fun _ => parallel_ret _ _
          · exact parallel_seq Handler.commit fun _ => parallel_ret _ _

theorem exchangeRefreshToken_parallel (h : SameHashes st sha d.secret secret)
    (hlike : st.HashesLike sha texts) (hmem : ∀ name value, params.get name = some value → value ∈ texts) :
    (exchangeRefreshToken st d client params).Parallel (fun _ _ => True)
      (exchangeRefreshToken (st.withHash sha) (d.withSecrets secret) client params) := by
  have hnow : (d.withSecrets secret).now = d.now := rfl
  have hsigned : signedTokens (st.withHash sha) (d.withSecrets secret) = signedTokens st d := rfl
  simp only [exchangeRefreshToken, Prog.bind_eq, Prog.pure_eq, hnow, hsigned]
  cases hraw : params.get "refresh_token" with
  | none => exact .fail _
  | some raw =>
  simp only [okOr_some, ret_bind]
  rw [hlike.hashToken (hmem _ _ hraw)]
  refine parallel_seq _ fun requested => parallel_seq _ fun _ => ?_
  refine parallel_seq _ fun found => parallel_seq _ fun record => ?_
  cases record.checkUsable client.id d.now with
  | error e => cases e <;> exact parallel_eq rfl
  | ok u =>
      refine parallel_seq _ fun granted => parallel_seq _ fun scope => parallel_seq _ fun response => ?_
      refine parallel_bind (issue_parallel h _) fun a a' hrow => ?_
      rw [hrow]
      exact parallel_seq _ fun _ => parallel_seq _ fun _ => parallel_ret _ _

end exchanges

theorem handle_parallel (h : SameHashes st sha d.secret secret) {header : Option String}
    {pairs : List (String × String)} (hlike : st.HashesLike sha (presentedFields header pairs)) :
    (Token.handle st d header pairs).Parallel (fun _ _ => True)
      (Token.handle (st.withHash sha) (d.withSecrets secret) header pairs) := by
  simp only [Token.handle, Prog.bind_eq]
  cases hparams : Params.fromPairs pairs with
  | error e => exact .fail _
  | ok params =>
  have hfields (name value) (hget : params.get name = some value) :
      value ∈ presentedFields header pairs := presented_field hparams hget
  simp only [Except.mapError, ofExcept_ok, ret_bind]
  refine parallel_seq _ fun grantType => ?_
  cases hcredentials : Client.extractCredentials header params with
  | error e => exact .fail _
  | ok credentials =>
  simp only [ofExcept_ok, ret_bind]
  rw [authenticate_withHash hlike credentials fun _ => presented_secret hparams hcredentials]
  refine parallel_seq _ fun client => ?_
  cases grantType with
  | authorizationCode => exact exchangeAuthorizationCode_parallel h hlike hfields
  | refreshToken => exact exchangeRefreshToken_parallel h hlike hfields

theorem token_parallel (h : SameHashes st sha d.secret secret) {form : Option (List (String × String))}
    (hlike : st.HashesLike sha (presentedFields (authorizationHeader headers) (form.getD []))) :
    (token st d headers form).Parallel (fun _ _ => True)
      (token (st.withHash sha) (d.withSecrets secret) headers form) := by
  simp only [token, Prog.bind_eq, Prog.pure_eq]
  cases form with
  | none => exact parallel_ret _ _
  | some pairs =>
      refine parallel_answer (handle_parallel h hlike) fun r r' hr => ?_
      cases hr <;> exact parallel_ret _ _

/-- Nothing drawn reaches the revocation endpoint. -/
theorem revocation_withHash {header : Option String} {pairs : List (String × String)}
    (hlike : st.HashesLike sha (presentedFields header pairs)) :
    Revocation.handle (st.withHash sha) (d.withSecrets secret) header pairs =
      Revocation.handle st d header pairs := by
  simp only [Revocation.handle, Prog.bind_eq, Prog.pure_eq]
  cases hparams : Params.fromPairs pairs with
  | error e => simp only [Except.mapError, ofExcept_error, fail_bind]
  | ok params =>
  simp only [Except.mapError, ofExcept_ok, ret_bind]
  cases hcredentials : Client.extractCredentials header params with
  | error e => simp only [ofExcept_error, fail_bind]
  | ok credentials =>
  simp only [ofExcept_ok, ret_bind]
  rw [authenticate_withHash hlike credentials fun _ => presented_secret hparams hcredentials]
  congr 1
  funext client
  cases htoken : params.get "token" with
  | none => simp only [okOr_none, fail_bind]
  | some token =>
      simp only [okOr_some, ret_bind]
      rw [hlike.hashToken (presented_field hparams htoken)]
      congr 1
      funext found
      cases found <;> rfl

theorem revoke_parallel {form : Option (List (String × String))}
    (hlike : st.HashesLike sha (presentedFields (authorizationHeader headers) (form.getD []))) :
    (revoke st d headers form).Parallel (fun _ _ => True)
      (revoke (st.withHash sha) (d.withSecrets secret) headers form) := by
  simp only [revoke, Prog.bind_eq, Prog.pure_eq]
  cases form with
  | none => exact parallel_ret _ _
  | some pairs =>
      have hhandle : Revocation.handle (st.withHash sha) (d.withSecrets secret)
          (authorizationHeader headers) pairs =
          Revocation.handle st d (authorizationHeader headers) pairs := revocation_withHash hlike
      simp only [hhandle]
      refine parallel_seq _ fun r => ?_
      cases r <;> exact parallel_ret _ _

/-! ### Client secrets -/

theorem validateRedirectUris_withHash (uris : List String) :
    Client.validateRedirectUris (st.withHash sha).toCrates uris =
      Client.validateRedirectUris st.toCrates uris := by
  induction uris with
  | nil => rfl
  | cons uri rest ih =>
      simp only [Client.validateRedirectUris, ih]
      rfl

theorem validateDetails_withHash :
    Client.validateDetails (st.withHash sha).toCrates = Client.validateDetails st.toCrates := by
  funext details
  simp only [Client.validateDetails, validateRedirectUris_withHash]

/-- The new client is the same, but for its secret. -/
theorem register_parallel (h : SameHashes st sha d.secret secret)
    (hid : Client.newClientId (secret 0) = Client.newClientId (d.secret 0)) (new : Client.NewClient) :
    (Client.register st.toCrates d new).Parallel (fun a a' => a.client = a'.client)
      (Client.register (st.withHash sha).toCrates (d.withSecrets secret) new) := by
  simp only [Client.register, Prog.bind_eq, Prog.pure_eq, validateDetails_withHash]
  refine parallel_seq _ fun details => ?_
  have hsecret :
      (if new.confidential then some (Client.newClientSecret ((d.withSecrets secret).secret 1))
        else none).map (st.withHash sha).hashToken =
      (if new.confidential then some (Client.newClientSecret (d.secret 1)) else none).map
        st.hashToken := by
    cases new.confidential with
    | false => rfl
    | true => exact congrArg some h.hashSecret
  have hid : Client.newClientId ((d.withSecrets secret).secret 0) = Client.newClientId (d.secret 0) := hid
  rw [hsecret, hid]
  exact parallel_seq _ fun _ => .ret rfl

theorem rotateSecret_parallel (h : SameHashes st sha d.secret secret) (client : OAuthClient) :
    (Client.rotateSecret st.toCrates d client).Parallel (fun a a' => a.isSome = a'.isSome)
      (Client.rotateSecret (st.withHash sha).toCrates (d.withSecrets secret) client) := by
  simp only [Client.rotateSecret, Prog.bind_eq, Prog.pure_eq]
  split_ifs
  · exact .ret rfl
  · rw [h.hashSecret]
    exact parallel_seq _ fun _ => .ret rfl

namespace Apps

theorem signedInUser_parallel (hlike : st.HashesLike sha (presentedCookie headers)) (returnTo : String)
    {f f' : User → Service AppError Response}
    (hf : ∀ user, (f user).Parallel (fun _ _ => True) (f' user)) :
    (signedInUser st d headers returnTo f).Parallel (fun _ _ => True)
      (signedInUser (st.withHash sha) (d.withSecrets secret) headers returnTo f') := by
  simp only [signedInUser, Prog.bind_eq, Prog.pure_eq, currentSession_withSecrets hlike]
  refine parallel_seq _ fun session => ?_
  cases session with
  | none => exact parallel_ret _ _
  | some s => exact hf s.2

theorem ownedApp_parallel (user : User) (clientId : String)
    {f f' : OAuthClient → Service AppError Response}
    (hf : ∀ app, (f app).Parallel (fun _ _ => True) (f' app)) :
    (ownedApp user clientId f).Parallel (fun _ _ => True) (ownedApp user clientId f') := by
  simp only [ownedApp, Prog.bind_eq, Prog.pure_eq]
  refine parallel_seq _ fun found => ?_
  cases found with
  | none => exact parallel_ret _ _
  | some app => exact hf app

/-- Pages with a form differ in its CSRF token, and perhaps in a secret that they show. -/
theorem appPage_parallel (status : ℕ) (app : OAuthClient) (form : AppForm)
    (messages messages' : DeveloperAppMessages) :
    (appPage st d headers status app form messages).Parallel (fun _ _ => True)
      (appPage (st.withHash sha) (d.withSecrets secret) headers status app form messages') :=
  parallel_seq _ fun _ => parallel_ret _ _

theorem newAppForm_parallel (status : ℕ) (form : AppForm) (error : Option String) :
    (newAppForm st d headers status form error).Parallel (fun _ _ => True)
      (newAppForm (st.withHash sha) (d.withSecrets secret) headers status form error) :=
  parallel_seq _ fun _ => parallel_ret _ _

section pages

variable (hlike : st.HashesLike sha (presentedCookie headers))

include hlike

theorem createPage_parallel (h : SameHashes st sha d.secret secret)
    (hid : Client.newClientId (secret 0) = Client.newClientId (d.secret 0))
    (pairs : List (String × String)) :
    (createPage st d headers pairs).Parallel (fun _ _ => True)
      (createPage (st.withHash sha) (d.withSecrets secret) headers pairs) := by
  refine signedInUser_parallel hlike _ fun user => ?_
  simp only [Prog.bind_eq, Prog.pure_eq]
  split_ifs
  · exact parallel_ret _ _
  · have hcreate : (create st.toCrates d user (AppForm.fromPairs pairs)).Parallel
        (fun a a' => a.client = a'.client)
        (create (st.withHash sha).toCrates (d.withSecrets secret) user (AppForm.fromPairs pairs)) := by
      simp only [create, Prog.bind_eq]
      refine parallel_seq _ fun count => ?_
      split_ifs
      · exact .fail _
      · exact parallel_lift (register_parallel h hid _)
    refine parallel_answer hcreate fun r r' hr => ?_
    cases hr with
    | ok hclient =>
        dsimp only
        rw [hclient]
        exact appPage_parallel _ _ _ _ _
    | error e => cases e <;> first | exact .fail _ | exact newAppForm_parallel _ _ _

theorem updatePage_parallel (clientId : String) (pairs : List (String × String)) :
    (updatePage st d headers clientId pairs).Parallel (fun _ _ => True)
      (updatePage (st.withHash sha) (d.withSecrets secret) headers clientId pairs) := by
  refine signedInUser_parallel hlike _ fun user => ownedApp_parallel _ _ fun app => ?_
  have hupdate (form : AppForm) : update (st.withHash sha).toCrates (d.withSecrets secret) app form =
      update st.toCrates d app form := by
    simp only [update, Client.updateDetails, validateDetails_withHash]
    rfl
  simp only [Prog.bind_eq, Prog.pure_eq, hupdate]
  split_ifs
  · exact parallel_ret _ _
  · refine parallel_seq _ fun r => ?_
    cases r with
    | ok u => exact parallel_ret _ _
    | error e => cases e <;> first | exact .fail _ | exact appPage_parallel _ _ _ _ _

theorem rotateSecretPage_parallel (h : SameHashes st sha d.secret secret) (clientId : String)
    (pairs : List (String × String)) :
    (rotateSecretPage st d headers clientId pairs).Parallel (fun _ _ => True)
      (rotateSecretPage (st.withHash sha) (d.withSecrets secret) headers clientId pairs) := by
  refine signedInUser_parallel hlike _ fun user => ownedApp_parallel _ _ fun app => ?_
  simp only [Prog.bind_eq, Prog.pure_eq]
  split_ifs
  · exact parallel_ret _ _
  · refine parallel_bind (parallel_lift (rotateSecret_parallel h app)) fun r r' hr => ?_
    cases r with
    | none =>
        cases r' with
        | none => exact parallel_ret _ _
        | some secret' => cases hr
    | some shown =>
        cases r' with
        | none => cases hr
        | some shown' => exact appPage_parallel _ _ _ _ _

theorem deletePage_parallel (clientId : String) (pairs : List (String × String)) :
    (deletePage st d headers clientId pairs).Parallel (fun _ _ => True)
      (deletePage (st.withHash sha) (d.withSecrets secret) headers clientId pairs) := by
  refine signedInUser_parallel hlike _ fun user => ownedApp_parallel _ _ fun app => ?_
  simp only [Prog.bind_eq, Prog.pure_eq]
  split_ifs
  · exact parallel_ret _ _
  · exact appPage_parallel _ _ _ _ _
  · exact parallel_seq _ fun _ => parallel_ret _ _

end pages

end Apps

/-! ### Every request -/

theorem logout_parallel (hlike : st.HashesLike sha (presentedCookie headers))
    (csrfToken : Option String) : (Pages.logout st d headers csrfToken).Parallel (fun _ _ => True)
      (Pages.logout (st.withHash sha) (d.withSecrets secret) headers csrfToken) := by
  simp only [Pages.logout, Prog.bind_eq, Prog.pure_eq]
  split_ifs
  · exact parallel_ret _ _
  · cases hcookie : CookieManager.get headers Session.sessionCookie with
    | none => exact parallel_ret _ _
    | some token =>
        simp only [Session.revoke]
        rw [hlike.hashToken (by simp [presentedCookie, hcookie])]
        exact parallel_seq _ fun _ => parallel_ret _ _

theorem createClient_parallel (h : SameHashes st sha d.secret secret)
    (hid : Client.newClientId (secret 0) = Client.newClientId (d.secret 0)) (name : String)
    (redirectUris : List String) (scopes : String) (isPublic : Bool) :
    (createClient st d name redirectUris scopes isPublic).Parallel (fun _ _ => True)
      (createClient (st.withHash sha) (d.withSecrets secret) name redirectUris scopes isPublic) := by
  simp only [createClient, Prog.bind_eq, Prog.pure_eq]
  cases ScopeSet.parse scopes with
  | error e => exact parallel_ret _ _
  | ok scopes =>
      refine parallel_answer (register_parallel h hid _) fun r r' hr => ?_
      cases hr <;> exact parallel_ret _ _

theorem respond_parallel (h : SameHashes st sha d.secret secret) (req : Request)
    (hid : req.CreatesClient → Client.newClientId (secret 0) = Client.newClientId (d.secret 0))
    (hlike : st.HashesLike sha req.presented) :
    (respond st d req).Parallel (fun _ _ => True)
      (respond (st.withHash sha) (d.withSecrets secret) req) := by
  cases req with
  | authorize headers pairs => exact orInternalError_parallel (authorize_parallel h hlike pairs)
  | consent headers pairs => exact orInternalError_parallel (consent_parallel h hlike pairs)
  | token headers form => exact token_parallel h hlike
  | revoke headers form => exact revoke_parallel hlike
  | home headers =>
      have hcookie : st.HashesLike sha (presentedCookie headers) := hlike
      refine orInternalError_parallel ?_
      simp only [Pages.home, Prog.bind_eq, Prog.pure_eq, currentSession_withSecrets hcookie]
      exact parallel_seq _ fun _ => parallel_ret _ _
  | signInPage headers returnTo => exact parallel_ret _ _
  | signIn headers form => exact orInternalError_parallel (signIn_parallel h hlike form)
  | signUpPage headers returnTo => exact parallel_ret _ _
  | signUp headers form => exact orInternalError_parallel (signUp_parallel h hlike form)
  | logout headers csrfToken => exact orInternalError_parallel (logout_parallel hlike csrfToken)
  | appList headers path notice =>
      exact orInternalError_parallel (Apps.signedInUser_parallel hlike _ fun user => parallel_eq rfl)
  | appNew headers path =>
      exact orInternalError_parallel (Apps.signedInUser_parallel hlike _ fun user =>
        Apps.newAppForm_parallel _ _ _)
  | appCreate headers pairs =>
      exact orInternalError_parallel (Apps.createPage_parallel hlike h (hid (.appCreate _ _)) pairs)
  | appShow headers path clientId notice =>
      exact orInternalError_parallel (Apps.signedInUser_parallel hlike _ fun user =>
        Apps.ownedApp_parallel _ _ fun app => Apps.appPage_parallel _ _ _ _ _)
  | appUpdate headers clientId pairs =>
      exact orInternalError_parallel (Apps.updatePage_parallel hlike clientId pairs)
  | appRotateSecret headers clientId pairs =>
      exact orInternalError_parallel (Apps.rotateSecretPage_parallel hlike h clientId pairs)
  | appDelete headers clientId pairs =>
      exact orInternalError_parallel (Apps.deletePage_parallel hlike clientId pairs)
  | createClient name redirectUris scopes isPublic =>
      exact createClient_parallel h (hid (.createClient _ _ _ _)) name redirectUris scopes isPublic
  | addScope scope => exact parallel_eq rfl

/-- **The tables hold no secret that is drawn.**  Every request leaves the same tables behind when the server draws
other secrets, and hashes them as it hashes those it draws. -/
theorem serve_hides (h : SameHashes st sha d.secret secret) (faults : List Bool) (req : Request)
    (hid : req.CreatesClient → Client.newClientId (secret 0) = Client.newClientId (d.secret 0))
    (hlike : st.HashesLike sha req.presented) (db : Db) :
    (serve (st.withHash sha) (d.withSecrets secret) faults req db).2 = (serve st d faults req db).2 :=
  (congrArg Conn.db (parallel_run (respond_parallel h req hid hlike) faults ⟨db, none⟩).2).symm

end handlers

namespace Sample

/-- Other secrets for the fourth request. -/
def otherSecrets (i : Fin 3) : Vector UInt8 32 := Vector.replicate 32 (UInt8.ofNat (200 + i))

/-- A function that hashes the other secrets like the first one hashes those of the fourth request. -/
def otherHash (m : List UInt8) : Vector UInt8 32 :=
  if m = utf8 (generateToken (otherSecrets 0)) then
    state.sha256 (utf8 (generateToken ((draws 4).secret 0)))
  else if m = utf8 (Client.newClientSecret (otherSecrets 1)) then
    state.sha256 (utf8 (Client.newClientSecret ((draws 4).secret 1)))
  else state.sha256 m

theorem sameHashes : SameHashes state otherHash (draws 4).secret otherSecrets :=
  ⟨by decide +kernel, by decide +kernel⟩

theorem hashesLike :
    state.HashesLike otherHash (Request.consent signedInBrowser consentForm).presented := by
  unfold AppState.HashesLike
  decide +kernel

/-- An authorization code is stored in the same row, were it another one. -/
theorem serve_hides_code : generateToken (otherSecrets 0) ≠ generateToken ((draws 4).secret 0) ∧
    (serve (state.withHash otherHash) ((draws 4).withSecrets otherSecrets) []
      (.consent signedInBrowser consentForm) registered).2 =
        (serve state (draws 4) [] (.consent signedInBrowser consentForm) registered).2 :=
  ⟨by decide +kernel, serve_hides sameHashes [] (.consent signedInBrowser consentForm)
    (fun h => by cases h) hashesLike registered⟩

end Sample

end SharpOauth
