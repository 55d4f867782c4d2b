import SharpOauth.Client

/-! # The authorization endpoint

`validate` checks an authorization request in two phases: first the client and its redirect
URI, whose failures are shown to the user, then everything else (`checkRequest`), whose
failures go back to the client as a redirect.

`decide` asks for a sign-in, asks for consent, or issues a code; `completeConsent` handles the
answer on the consent screen.  Both issue codes through `issueCode`. -/

namespace SharpOauth

namespace Authorization

/-- Authorization codes live for one minute. -/
def authorizationCodeTtl : Duration := Duration.seconds 60

def maxNonceLen : ℕ := 512

def maxStateLen : ℕ := 2048

/-! ### Request parsing -/

/-- The raw parameters of an authorization request, not yet validated. -/
structure AuthorizationRequest where
  clientId : Option String
  redirectUri : Option String
  responseType : Option String
  responseMode : Option String
  scope : Option String
  state : Option String
  codeChallenge : Option String
  codeChallengeMethod : Option String
  nonce : Option String
  prompt : Option String
  maxAge : Option String
  hasRequestObject : Bool
  hasRequestUri : Bool
deriving DecidableEq

namespace AuthorizationRequest

def fromParams (params : Params) : AuthorizationRequest where
  clientId := params.get "client_id"
  redirectUri := params.get "redirect_uri"
  responseType := params.get "response_type"
  responseMode := params.get "response_mode"
  scope := params.get "scope"
  state := params.get "state"
  codeChallenge := params.get "code_challenge"
  codeChallengeMethod := params.get "code_challenge_method"
  nonce := params.get "nonce"
  prompt := params.get "prompt"
  maxAge := params.get "max_age"
  hasRequestObject := (params.get "request").isSome
  hasRequestUri := (params.get "request_uri").isSome

/-- The parameters as name/value pairs. -/
def toPairs (r : AuthorizationRequest) : List (String × String) :=
  [("client_id", r.clientId), ("redirect_uri", r.redirectUri), ("response_type", r.responseType),
    ("response_mode", r.responseMode), ("scope", r.scope), ("state", r.state),
    ("code_challenge", r.codeChallenge), ("code_challenge_method", r.codeChallengeMethod),
    ("nonce", r.nonce), ("prompt", r.prompt), ("max_age", r.maxAge)].filterMap
      fun (name, value) => value.map fun v => (name, v)

/-- `/oauth/authorize?…` for this request. -/
def toPath (r : AuthorizationRequest) : String := "/oauth/authorize?" ++ formAppend "" r.toPairs

/-- A copy without the parameters that force re-authentication. -/
def withoutReauthentication (r : AuthorizationRequest) : AuthorizationRequest :=
  let prompt := r.prompt.map fun prompt =>
    " ".intercalate ((splitAll ' ' prompt).filter fun value => value ≠ "login")
  { r with prompt := prompt.filter (· ≠ ""), maxAge := none }

end AuthorizationRequest

/-- The OIDC `prompt` parameter. -/
structure Prompt where
  /-- Never show UI. -/
  none : Bool
  /-- Force the user to enter their password again. -/
  login : Bool
  /-- Show the consent screen even if consent was already given. -/
  consent : Bool
deriving DecidableEq, Repr

namespace Prompt

/-- The loop of `parse`. -/
def collect (prompt : Prompt) : List String → Option Prompt
  | [] => some prompt
  | value :: rest =>
      if value = "none" then { prompt with none := true }.collect rest
      else if value = "login" then { prompt with login := true }.collect rest
      else if value = "consent" then { prompt with consent := true }.collect rest
      else if value = "select_account" then prompt.collect rest
      else Option.none

def parse (raw : Option String) : Option Prompt := do
  let prompt ← collect ⟨false, false, false⟩ ((splitAll ' ' (raw.getD "")).filter (· ≠ ""))
  if prompt.none && (prompt.login || prompt.consent) then Option.none else some prompt

end Prompt

/-- A decimal number below `2 ^ 32`, with an optional `+`. -/
def parseU32 (raw : String) : Option ℕ :=
  let digits := match raw.toList with
    | '+' :: rest => rest
    | digits => digits
  if digits = [] ∨ digits.any fun c => !c.isDigit then none
  else
    let n := digits.foldl (fun n c => n * 10 + (c.toNat - '0'.toNat)) 0
    if n < 2 ^ 32 then some n else none

/-! ### Validation -/

/-- An authorization request that passed every check. -/
structure ValidatedRequest where
  client : OAuthClient
  redirectUri : String
  scope : ScopeSet
  state : String
  codeChallenge : String
  nonce : Option String
  prompt : Prompt
  maxAge : Option ℤ

/-- An error response for the client. -/
structure ErrorRedirect where
  redirectUri : String
  state : Option String
  error : String
  description : String
deriving DecidableEq, Repr

inductive AuthorizationError where
  /-- The client or redirect URI could not be verified. -/
  | unsafeLink (message : String)
  /-- A protocol error that is reported to the client via redirect. -/
  | redirect (err : ErrorRedirect)
  | internal (err : AppError)
deriving DecidableEq, Repr

instance : Into AppError AuthorizationError := ⟨.internal⟩

instance : Into SqlError AuthorizationError := ⟨fun e => .internal (.database e)⟩

/-- An error that is redirected back to the client of a validated request. -/
def ValidatedRequest.err (v : ValidatedRequest) (error description : String) : AuthorizationError :=
  .redirect { redirectUri := v.redirectUri, state := some v.state, error, description }

/-- Append query parameters to a URL, keeping its own query. -/
def extendQueryPairs (url : Url) (params : List (String × String)) : Url :=
  { url with query := some (formAppend (url.query.getD "") params) }

/-- Append query parameters to a redirect URI. -/
def redirectWithParams (cr : Crates) (redirectUri : String) (params : List (String × String)) :
    Except AppError String :=
  match cr.parseUrl redirectUri with
  | none => .error (.internal "registered redirect_uri is not a valid URL")
  | some url => .ok (cr.urlToString (extendQueryPairs url params))

/-- `redirect_uri?error=…&error_description=…&state=…&iss=…` -/
def ErrorRedirect.toUrl (st : AppState) (e : ErrorRedirect) : Except AppError String :=
  redirectWithParams st.toCrates e.redirectUri
    ([("error", e.error), ("error_description", e.description)] ++
      (match e.state with
        | some state => [("state", state)]
        | none => []) ++
      [("iss", st.issuer)])

/-- `response_type` is `code`. -/
def checkResponseType (fail : String → String → AuthorizationError) :
    Option String → Except AuthorizationError Unit
  | none => .error (fail "invalid_request" "response_type is required")
  | some responseType => Check.that (responseType = "code")
      (fail "unsupported_response_type" "only response_type=code is supported")

/-- `max_age`, if given, is a number. -/
def checkMaxAge (fail : String → String → AuthorizationError) :
    Option String → Except AuthorizationError (Option ℤ)
  | none => .ok none
  | some raw => match parseU32 raw with
      | some n => .ok (some n)
      | none => .error (fail "invalid_request" "max_age must be a non-negative integer")

/-- The second phase of `validate`: the redirect URI is known to be the client's. -/
def checkRequest (client : OAuthClient) (redirectUri : String) (r : AuthorizationRequest) :
    Except AuthorizationError ValidatedRequest := do
  let fail (error description : String) : AuthorizationError :=
    .redirect { redirectUri, state := r.state, error, description }
  Check.that (!r.hasRequestObject)
    (fail "request_not_supported" "request objects are not supported")
  Check.that (!r.hasRequestUri) (fail "request_uri_not_supported" "request_uri is not supported")
  checkResponseType fail r.responseType
  Check.that (r.responseMode.all fun mode => mode = "query")
    (fail "invalid_request" "only response_mode=query is supported")
  let state ← Check.value r.state (fail "invalid_request" "state is required")
  Check.that ((utf8 state).length ≤ maxStateLen) (fail "invalid_request" "state is too long")
  let raw ← Check.value r.scope (fail "invalid_scope" "scope is required")
  let scope ← (ScopeSet.parse raw).mapError fun _ => fail "invalid_scope" "scope is malformed"
  Check.that (scope.isSubsetOf client.allowedScopeSet)
    (fail "invalid_scope" "the client is not allowed to request one or more of these scopes")
  let codeChallenge ←
    Check.value r.codeChallenge (fail "invalid_request" "code_challenge is required (PKCE)")
  Check.that (r.codeChallengeMethod = some Pkce.s256)
    (fail "invalid_request" "code_challenge_method must be S256")
  Check.that (Pkce.isValidS256Challenge codeChallenge)
    (fail "invalid_request" "code_challenge is malformed")
  Check.that (r.nonce.all fun nonce => (utf8 nonce).length ≤ maxNonceLen)
    (fail "invalid_request" "nonce is too long")
  let prompt ← Check.value (Prompt.parse r.prompt) (fail "invalid_request" "prompt is invalid")
  let maxAge ← checkMaxAge fail r.maxAge
  return { client, redirectUri, scope, state, codeChallenge, nonce := r.nonce, prompt, maxAge }

/-- Check an authorization request against the client registry and protocol rules. -/
def validate (r : AuthorizationRequest) : Service AuthorizationError ValidatedRequest := do
  let clientId ← Prog.okOr r.clientId
    (.unsafeLink "The request is missing the client_id parameter.")
  let client ← query (.clientsFindByClientId clientId)
  let client ← Prog.okOr (client.filter OAuthClient.isActive)
    (.unsafeLink "The application making this request is not registered with Sharpnr.")
  let redirectUri ← Prog.okOr r.redirectUri
    (.unsafeLink "The request is missing the redirect_uri parameter.")
  if !client.hasRedirectUri redirectUri then
    .fail (.unsafeLink "The redirect_uri does not match any URI registered for this application.")
  else
    Prog.ofExcept (checkRequest client redirectUri r)

/-! ### Consent -/

/-- The scopes `userId` has approved for `clientId`, if any. -/
def grantedScopes (userId clientId : Uuid) : Service AppError (Option ScopeSet) := do
  let scopes ← query (.consentsFindActive userId clientId)
  return scopes.map ScopeSet.ofList

/-- Record approval of `scopes`, adding to anything approved earlier. -/
def grant (d : Draws) (userId clientId : Uuid) (scopes : ScopeSet) : Service AppError Unit := do
  let existing ← grantedScopes userId clientId
  let all := match existing with
    | some existing => existing.union scopes
    | none => scopes
  query (.consentsUpsert (d.uuid 1) userId clientId all.toList d.now)

/-! ### Deciding what happens next -/

/-- The session is too old for this request, or the client demanded a fresh sign-in. -/
def needsReauthentication (v : ValidatedRequest) (session : Session) (now : Instant) : Bool :=
  let tooOld := v.maxAge.any fun maxAge => Duration.numSeconds (now - session.createdAt) > maxAge
  v.prompt.login || tooOld

/-- The row of a new authorization code. -/
def newCode (cr : Crates) (d : Draws) (v : ValidatedRequest) (user : User) (session : Session) :
    AuthorizationCode where
  id := d.uuid 0
  codeHash := cr.hashToken (generateToken (d.secret 0))
  clientId := v.client.id
  userId := user.id
  redirectUri := v.redirectUri
  scope := v.scope.toString
  codeChallenge := v.codeChallenge
  codeChallengeMethod := Pkce.s256
  nonce := v.nonce
  authTime := session.createdAt
  expiresAt := d.now + authorizationCodeTtl
  createdAt := d.now
  usedAt := none

/-- Create and store a one-time authorization code; the result is the redirect URL. -/
def issueCode (st : AppState) (d : Draws) (v : ValidatedRequest) (user : User) (session : Session) :
    Service AppError String := do
  query (.codesInsert (newCode st.toCrates d v user session))
  Prog.ofExcept (redirectWithParams st.toCrates v.redirectUri
    [("code", generateToken (d.secret 0)), ("state", v.state), ("iss", st.issuer)])

/-- The outcome of an authorization request. -/
inductive NextStep where
  /-- The user must sign in, then come back. -/
  | signIn (returnTo : String)
  /-- The signed-in user must approve (or deny) these scopes. -/
  | askConsent (request : ValidatedRequest) (user : User) (scopes : List ScopeDescription)
  /-- Send the browser to the client with a code. -/
  | redirectToClient (url : String)

/-- The authorization endpoint for a request and the current browser session. -/
def decide (st : AppState) (d : Draws) (r : AuthorizationRequest)
    (signedIn : Option (Session × User)) : Service AuthorizationError NextStep := do
  let v ← validate r
  match signedIn.filter fun s => !needsReauthentication v s.1 d.now with
  | none =>
      if v.prompt.none then .fail (v.err "login_required" "the user is not signed in")
      else return .signIn r.withoutReauthentication.toPath
  | some (session, user) =>
      let granted ← (grantedScopes user.id v.client.id).lift
      let alreadyApproved := granted.any fun granted => v.scope.isSubsetOf granted
      if alreadyApproved && !v.prompt.consent then
        let url ← (issueCode st d v user session).lift
        return .redirectToClient url
      else if v.prompt.none then
        .fail (v.err "consent_required" "the user has not approved these scopes")
      else
        let scopes ← query (.scopesFindByNames v.scope.toList)
        return .askConsent v user scopes

/-- The user's answer on the consent screen; the request is validated again from scratch. -/
def completeConsent (st : AppState) (d : Draws) (r : AuthorizationRequest) (approved : Bool)
    (session : Session) (user : User) : Service AuthorizationError String := do
  let v ← validate r
  if !approved then .fail (v.err "access_denied" "the user denied the request")
  else
    (grant d user.id v.client.id v.scope).lift
    (issueCode st d v user session).lift

end Authorization

end SharpOauth
