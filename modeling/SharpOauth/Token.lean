import SharpOauth.Authorization

/-! # The token and revocation endpoints

`Token.handle` exchanges an authorization code or a refresh token for tokens, and
`Revocation.handle` revokes the family of a refresh token.

* A code is claimed before anything else is checked, so every complete presentation of it
  counts; presenting it again revokes what its first use produced.
* A refresh token is rotated by every use: the new token joins the *family* of the old one and
  the old one points at it.  Presenting a rotated token revokes its family. -/

namespace SharpOauth

open Handler (begin commit)

/-! ### Access and ID tokens -/

namespace Access

/-- Lifetime of an access token. -/
def accessTokenTtl : Duration := Duration.minutes 15

/-- The JWT `typ` of access tokens. -/
def jwtType : String := "at+jwt"

structure AccessTokenClaims where
  iss : String
  /-- User ID. -/
  sub : String
  aud : String
  exp : ℤ
  iat : ℤ
  /-- Unique token ID. -/
  jti : String
  clientId : String
  scope : String
  authTime : ℤ
deriving DecidableEq, Repr

namespace AccessTokenClaims

def new (issuer : String) (userId : Uuid) (clientId : String) (scope : ScopeSet)
    (authTime now : Instant) (jti : Uuid) : AccessTokenClaims where
  iss := issuer
  sub := userId.toString
  aud := issuer
  exp := timestamp (now + accessTokenTtl)
  iat := timestamp now
  jti := jti.toString
  clientId := clientId
  scope := scope.toString
  authTime := timestamp authTime

/-- The payload of the JWT. -/
def payload (c : AccessTokenClaims) : List (String × ClaimValue) :=
  [("iss", .str c.iss), ("sub", .str c.sub), ("aud", .str c.aud), ("exp", .int c.exp),
    ("iat", .int c.iat), ("jti", .str c.jti), ("client_id", .str c.clientId),
    ("scope", .str c.scope), ("auth_time", .int c.authTime)]

/-- The set in the `scope` claim, empty if the claim cannot be read. -/
def scopes (c : AccessTokenClaims) : ScopeSet :=
  match ScopeSet.parse c.scope with
  | .ok scopes => scopes
  | .error _ => ScopeSet.empty

end AccessTokenClaims

def issue (st : AppState) (claims : AccessTokenClaims) : Except AppError String :=
  (st.sign jwtType claims.payload).mapError .internal

end Access

namespace IdToken

/-- Lifetime of an ID token. -/
def idTokenTtl : Duration := Duration.minutes 15

/-- The JWT `typ` of ID tokens. -/
def jwtType : String := "JWT"

structure IdTokenClaims where
  iss : String
  sub : String
  aud : String
  exp : ℤ
  iat : ℤ
  authTime : ℤ
  nonce : Option String
deriving DecidableEq, Repr

namespace IdTokenClaims

def new (issuer : String) (userId : Uuid) (clientId : String) (authTime : Instant)
    (nonce : Option String) (now : Instant) : IdTokenClaims where
  iss := issuer
  sub := userId.toString
  aud := clientId
  exp := timestamp (now + idTokenTtl)
  iat := timestamp now
  authTime := timestamp authTime
  nonce := nonce

/-- The payload of the JWT; an absent nonce is left out. -/
def payload (c : IdTokenClaims) : List (String × ClaimValue) :=
  [("iss", .str c.iss), ("sub", .str c.sub), ("aud", .str c.aud), ("exp", .int c.exp),
    ("iat", .int c.iat), ("auth_time", .int c.authTime)] ++
    (match c.nonce with
      | some nonce => [("nonce", .str nonce)]
      | none => [])

end IdTokenClaims

def issue (st : AppState) (claims : IdTokenClaims) : Except AppError String :=
  (st.sign jwtType claims.payload).mapError .internal

end IdToken

/-! ### Refresh tokens -/

namespace Refresh

/-- A refresh token expires 30 days after it was issued. -/
def refreshTokenTtl : Duration := Duration.days 30

/-- Why a stored refresh token cannot be used. -/
inductive Unusable where
  | wrongClient
  | revoked
  /-- Already exchanged once. -/
  | alreadyRotated
  | expired
deriving DecidableEq, Repr

/-- Everything needed to create a refresh token. -/
structure NewRefreshToken where
  familyId : Uuid
  authorizationCodeId : Option Uuid
  clientId : Uuid
  userId : Uuid
  scope : String
  authTime : Instant

/-- The row of a new refresh token. -/
def newRecord (cr : Crates) (d : Draws) (new : NewRefreshToken) : RefreshToken where
  id := d.uuid 2
  tokenHash := cr.hashToken (generateToken (d.secret 0))
  familyId := new.familyId
  authorizationCodeId := new.authorizationCodeId
  clientId := new.clientId
  userId := new.userId
  scope := new.scope
  authTime := new.authTime
  expiresAt := d.now + refreshTokenTtl
  createdAt := d.now
  revokedAt := none
  rotatedToId := none

/-- Store a new refresh token; the result is the raw token and its row. -/
def issue (cr : Crates) (d : Draws) (new : NewRefreshToken) :
    Service AppError (String × RefreshToken) := do
  query (.tokensInsert (newRecord cr d new))
  return (generateToken (d.secret 0), newRecord cr d new)

end Refresh

open Refresh (Unusable)

/-- Whether the client may use this token right now; a token of another client is rejected
before anything else. -/
def RefreshToken.checkUsable (t : RefreshToken) (clientId : Uuid) (now : Instant) :
    Except Unusable Unit :=
  if t.clientId ≠ clientId then .error .wrongClient
  else if t.revokedAt.isSome then .error .revoked
  else if t.rotatedToId.isSome then .error .alreadyRotated
  else if t.expiresAt ≤ now then .error .expired
  else .ok ()

/-! ### The token endpoint -/

namespace Token

inductive GrantType where
  | authorizationCode
  | refreshToken
deriving DecidableEq, Repr

def GrantType.parse : Option String → Except AppError GrantType
  | some raw =>
      if raw = "authorization_code" then .ok .authorizationCode
      else if raw = "refresh_token" then .ok .refreshToken
      else .error .unsupportedGrantType
  | none => .error (.invalidRequest "grant_type is required")

/-- A successful token response. -/
structure TokenResponse where
  accessToken : String
  tokenType : String
  expiresIn : ℤ
  scope : String
  refreshToken : Option String
  idToken : Option String
deriving DecidableEq, Repr

/-- Sign the access token and, for `openid` requests, the ID token. -/
def signedTokens (st : AppState) (d : Draws) (client : OAuthClient) (userId : Uuid)
    (scope : ScopeSet) (authTime : Instant) (nonce : Option String) :
    Except AppError TokenResponse := do
  let accessToken ← Access.issue st
    (.new st.issuer userId client.clientId scope authTime d.now (d.uuid 0))
  let idToken ←
    if scope.contains ScopeSet.openid then
      (IdToken.issue st (.new st.issuer userId client.clientId authTime nonce d.now)).map some
    else .ok none
  return {
    accessToken
    tokenType := "Bearer"
    expiresIn := Duration.numSeconds Access.accessTokenTtl
    scope := scope.toString
    refreshToken := none
    idToken }

/-- The scope of a stored row. -/
def storedScope (raw : String) : Except AppError ScopeSet :=
  (ScopeSet.parse raw).mapError fun _ => .internal "stored scope is malformed"

/-- The token request matches what the code was issued for. -/
def checkCodeBindings (cr : Crates) (record : AuthorizationCode) (client : OAuthClient)
    (redirectUri codeVerifier : String) (now : Instant) : Except AppError Unit :=
  if record.clientId ≠ client.id then
    .error (.invalidGrant "authorization code was issued to another client")
  else if record.expiresAt ≤ now then
    .error (.invalidGrant "authorization code has expired")
  else if record.redirectUri ≠ redirectUri then
    .error (.invalidGrant "redirect_uri does not match the authorization request")
  else if record.codeChallengeMethod ≠ Pkce.s256 ∨
      !Pkce.verifyS256 cr codeVerifier record.codeChallenge then
    .error (.invalidGrant "code_verifier does not match code_challenge")
  else .ok ()

/-- `grant_type=authorization_code` -/
def exchangeAuthorizationCode (st : AppState) (d : Draws) (client : OAuthClient)
    (params : Params) : Service AppError TokenResponse := do
  let code ← Prog.okOr (params.get "code") (.invalidRequest "code is required")
  let redirectUri ← Prog.okOr (params.get "redirect_uri")
    (.invalidRequest "redirect_uri is required")
  let codeVerifier ← Prog.okOr (params.get "code_verifier")
    (.invalidRequest "code_verifier is required (PKCE)")
  let codeHash := st.hashToken code
  begin
  match ← query (.codesClaim codeHash d.now) with
  | none =>
      -- Unknown, or already used.
      match ← query (.codesFindByHash codeHash) with
      | some used => do
          let _ ← query (.tokensRevokeByAuthorizationCode used.id d.now)
          commit
          .fail (.invalidGrant "authorization code has already been used")
      | none => .fail (.invalidGrant "authorization code is invalid")
  | some record =>
      match checkCodeBindings st.toCrates record client redirectUri codeVerifier d.now with
      | .error err => do
          -- The code stays consumed.
          commit
          .fail err
      | .ok () => do
          let scope ← Prog.ofExcept (storedScope record.scope)
          let response ← Prog.ofExcept
            (signedTokens st d client record.userId scope record.authTime record.nonce)
          let refreshToken ←
            if scope.contains ScopeSet.offlineAccess then do
              let (raw, _) ← Refresh.issue st.toCrates d
                { familyId := d.uuid 1
                  authorizationCodeId := some record.id
                  clientId := client.id
                  userId := record.userId
                  scope := record.scope
                  authTime := record.authTime }
              pure (some raw)
            else pure none
          commit
          return { response with refreshToken }

/-- The `scope` parameter of a refresh request. -/
def requestedScope : Option String → Except AppError (Option ScopeSet)
  | none => .ok none
  | some raw => match ScopeSet.parse raw with
      | .ok scope => .ok (some scope)
      | .error _ => .error (.invalidScope "scope is malformed")

/-- A client may ask for fewer scopes, never more. -/
def narrowedScope (granted : ScopeSet) : Option ScopeSet → Except AppError ScopeSet
  | some requested =>
      if !requested.isSubsetOf granted then
        .error (.invalidScope "requested scope exceeds the original grant")
      else .ok requested
  | none => .ok granted

/-- `grant_type=refresh_token` -/
def exchangeRefreshToken (st : AppState) (d : Draws) (client : OAuthClient) (params : Params) :
    Service AppError TokenResponse := do
  let raw ← Prog.okOr (params.get "refresh_token") (.invalidRequest "refresh_token is required")
  let requested ← Prog.ofExcept (requestedScope (params.get "scope"))
  begin
  let record ← query (.tokensFindByHashForUpdate (st.hashToken raw))
  let record ← Prog.okOr record (.invalidGrant "refresh token is invalid")
  match record.checkUsable client.id d.now with
  | .error .alreadyRotated => do
      let _ ← query (.tokensRevokeFamily record.familyId d.now)
      commit
      .fail (.invalidGrant "refresh token has already been used")
  | .error .wrongClient => .fail (.invalidGrant "refresh token is invalid")
  | .error .revoked => .fail (.invalidGrant "refresh token has been revoked")
  | .error .expired => .fail (.invalidGrant "refresh token has expired")
  | .ok () => do
      let granted ← Prog.ofExcept (storedScope record.scope)
      let scope ← Prog.ofExcept (narrowedScope granted requested)
      let response ← Prog.ofExcept
        (signedTokens st d client record.userId scope record.authTime none)
      -- The new token keeps the original scope.
      let (newRaw, newRecord) ← Refresh.issue st.toCrates d
        { familyId := record.familyId
          authorizationCodeId := record.authorizationCodeId
          clientId := client.id
          userId := record.userId
          scope := record.scope
          authTime := record.authTime }
      query (.tokensMarkRotated record.id newRecord.id)
      commit
      return { response with refreshToken := some newRaw }

/-- `POST /oauth/token` -/
def handle (st : AppState) (d : Draws) (authorizationHeader : Option String)
    (pairs : List (String × String)) : Service AppError TokenResponse := do
  let params ← Prog.ofExcept ((Params.fromPairs pairs).mapError fun _ =>
    AppError.invalidRequest "parameters must not be repeated")
  let grantType ← Prog.ofExcept (GrantType.parse (params.get "grant_type"))
  let credentials ← Prog.ofExcept (Client.extractCredentials authorizationHeader params)
  let client ← Client.authenticate st.toCrates credentials
  match grantType with
  | .authorizationCode => exchangeAuthorizationCode st d client params
  | .refreshToken => exchangeRefreshToken st d client params

end Token

/-! ### The revocation endpoint -/

namespace Revocation

/-- `POST /oauth/revoke` -/
def handle (st : AppState) (d : Draws) (authorizationHeader : Option String)
    (pairs : List (String × String)) : Service AppError Unit := do
  let params ← Prog.ofExcept ((Params.fromPairs pairs).mapError fun _ =>
    AppError.invalidRequest "parameters must not be repeated")
  let credentials ← Prog.ofExcept (Client.extractCredentials authorizationHeader params)
  let client ← Client.authenticate st.toCrates credentials
  let token ← Prog.okOr (params.get "token") (.invalidRequest "token is required")
  match ← query (.tokensFindByHash (st.hashToken token)) with
  | none => return ()
  | some record =>
      if record.clientId ≠ client.id then
        .fail (.unauthorizedClient "the token was not issued to this client")
      else
        let _ ← query (.tokensRevokeFamily record.familyId d.now)
        return ()

end Revocation

end SharpOauth
