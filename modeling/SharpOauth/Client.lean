import SharpOauth.Database
import SharpOauth.Wire

/-! # Clients

Registration, the rules for redirect URIs, and client authentication at the token and
revocation endpoints.

A *confidential* client has a secret, of which only the hash is stored; a *public* client has
none.  Redirect URIs are registered up front and matched exactly. -/

namespace SharpOauth

namespace OAuthClient

def isConfidential (c : OAuthClient) : Bool := c.clientSecretHash.isSome

def isActive (c : OAuthClient) : Bool := c.disabledAt.isNone

/-- Exact redirect URI matching. -/
def hasRedirectUri (c : OAuthClient) (redirectUri : String) : Bool :=
  c.redirectUris.any fun registered => registered == redirectUri

def allowedScopeSet (c : OAuthClient) : ScopeSet := ScopeSet.ofList c.allowedScopes

@[simp] theorem hasRedirectUri_iff {c : OAuthClient} {uri : String} :
    c.hasRedirectUri uri = true ↔ uri ∈ c.redirectUris := by
  simp [hasRedirectUri]

end OAuthClient

namespace Client

/-! ### Registration -/

/-- Longest accepted client name. -/
def maxNameLen : ℕ := 80

/-- Most redirect URIs one client may register. -/
def maxRedirectUris : ℕ := 10

/-- Input for `register`. -/
structure NewClient where
  name : String
  redirectUris : List String
  scopes : ScopeSet
  confidential : Bool
  /-- `none` for registrations on the command line. -/
  ownerUserId : Option Uuid

/-- The fields a client's owner may change after registration. -/
structure ClientDetails where
  name : String
  redirectUris : List String
  scopes : ScopeSet

/-- Result of a successful registration. -/
structure RegisteredClient where
  client : OAuthClient
  /-- The raw secret, for confidential clients. -/
  clientSecret : Option String

inductive RegistrationError where
  | emptyName
  | nameTooLong
  | noRedirectUris
  | tooManyRedirectUris
  | noScopes
  | invalidRedirectUri (uri reason : String)
  | unknownScopes (scopes : List String)
  | database (err : SqlError)
deriving DecidableEq, Repr

instance : Into SqlError RegistrationError := ⟨.database⟩

/-- `localhost`, `127.0.0.0/8` and `::1`. -/
def isLoopbackHost (url : Url) : Bool :=
  match url.host with
  | some (.domain domain) => domain == "localhost"
  | some (.ipv4 ip) => ip.toNat / 2 ^ 24 == 127
  | some (.ipv6 ip) => ip == 1
  | none => false

/-- Rules for a redirect URI at registration time. -/
def validateRedirectUriForRegistration (cr : Crates) (uri : String) : Except String Unit :=
  match cr.parseUrl uri with
  | none => .error "must be an absolute URL"
  | some url =>
      if url.fragment.isSome then .error "must not contain a fragment (#...)"
      else if url.username ≠ "" ∨ url.password.isSome then .error "must not contain credentials"
      else if url.scheme = "https" then .ok ()
      else if url.scheme = "http" ∧ isLoopbackHost url then .ok ()
      else .error "must use https (http is only allowed for localhost)"

/-- The first redirect URI that breaks the rules is reported. -/
def validateRedirectUris (cr : Crates) : List String → Except RegistrationError Unit
  | [] => .ok ()
  | uri :: rest =>
      match validateRedirectUriForRegistration cr uri with
      | .ok () => validateRedirectUris cr rest
      | .error reason => .error (.invalidRedirectUri uri reason)

/-- Keep the first occurrence of every URI. -/
def dedupe (uris : List String) : List String :=
  uris.foldl (fun kept uri => if uri ∈ kept then kept else kept ++ [uri]) []

/-- Check and normalise everything a developer chooses about a client. -/
def validateDetails (cr : Crates) (details : ClientDetails) :
    Service RegistrationError ClientDetails := do
  let name := trim details.name
  if name = "" then .fail .emptyName
  else if name.toList.length > maxNameLen then .fail .nameTooLong
  else
    let redirectUris := dedupe details.redirectUris
    if redirectUris = [] then .fail .noRedirectUris
    else if redirectUris.length > maxRedirectUris then .fail .tooManyRedirectUris
    else
      Prog.ofExcept (validateRedirectUris cr redirectUris)
      let requested := details.scopes.toList
      if requested = [] then .fail .noScopes
      else
        let known ← query (.scopesFindByNames requested)
        let unknown := requested.filter fun scope => !known.any fun k => k.name == scope
        if unknown ≠ [] then .fail (.unknownScopes unknown)
        else return { name, redirectUris, scopes := details.scopes }

/-- A new client secret. -/
def newClientSecret (bytes : Vector UInt8 32) : String := "sharp_secret_" ++ generateToken bytes

/-- A new public identifier. -/
def newClientId (bytes : Vector UInt8 32) : String :=
  "sharp_client_" ++ String.ofList ((generateToken bytes).toList.take 24)

/-- Register a new client. -/
def register (cr : Crates) (d : Draws) (new : NewClient) :
    Service RegistrationError RegisteredClient := do
  let details ← validateDetails cr ⟨new.name, new.redirectUris, new.scopes⟩
  let clientSecret := if new.confidential then some (newClientSecret (d.secret 1)) else none
  let client : OAuthClient :=
    { id := d.uuid 0
      clientId := newClientId (d.secret 0)
      clientSecretHash := clientSecret.map cr.hashToken
      name := details.name
      redirectUris := details.redirectUris
      allowedScopes := details.scopes.toList
      createdAt := d.now
      updatedAt := d.now
      disabledAt := none
      ownerUserId := new.ownerUserId }
  query (.clientsInsert client)
  return { client, clientSecret }

/-- Replace a client's name, redirect URIs and allowed scopes. -/
def updateDetails (cr : Crates) (d : Draws) (client : OAuthClient) (details : ClientDetails) :
    Service RegistrationError Unit := do
  let details ← validateDetails cr details
  query (.clientsUpdateDetails client.id details.name details.redirectUris details.scopes.toList
    d.now)

/-- Replace a confidential client's secret and return the new one. -/
def rotateSecret (cr : Crates) (d : Draws) (client : OAuthClient) :
    Service SqlError (Option String) := do
  if !client.isConfidential then return none
  else
    let secret := newClientSecret (d.secret 1)
    query (.clientsUpdateSecretHash client.id (cr.hashToken secret) d.now)
    return some secret

/-- Delete a client and every grant it held. -/
def delete (client : OAuthClient) : Service SqlError Unit := query (.clientsDelete client.id)

/-! ### Client authentication -/

/-- Credentials a client presented, before they are checked. -/
structure ClientCredentials where
  clientId : String
  clientSecret : Option String
deriving DecidableEq

/-- Case-insensitive check of an HTTP auth scheme. -/
def hasScheme (header scheme : String) : Bool :=
  (splitOnce ' ' header).any fun p => asciiLower p.1 == asciiLower scheme

/-- Decode one form-urlencoded value, by parsing the one-pair form `v=<value>`. -/
def formUrldecode (value : String) : String :=
  let escaped := String.ofList (value.toList.flatMap fun c => if c = '&' then "%26".toList else [c])
  ((formParse (utf8 ("v=" ++ escaped))).head?.map Prod.snd).getD ""

/-- `Basic base64(client_id:client_secret)` -/
def parseBasicAuthorization (header : String) : Option (String × String) := do
  let (scheme, encoded) ← splitOnce ' ' header
  if asciiLower scheme ≠ asciiLower "Basic" then none
  else
    let decoded ← base64Decode (trim encoded).toList
    let decoded ← utf8Decode decoded
    let (id, secret) ← splitOnce ':' decoded
    let id := formUrldecode id
    if id = "" then none else some (id, formUrldecode secret)

/-- Collect client credentials from a request. -/
def extractCredentials (authorizationHeader : Option String) (params : Params) :
    Except AppError ClientCredentials := do
  let basic ← match authorizationHeader with
    | some header =>
        if hasScheme header "Basic" then
          match parseBasicAuthorization header with
          | some credentials => .ok (some credentials)
          | none => .error .invalidClient
        else .ok none
    | none => .ok none
  match basic, params.get "client_secret" with
  | some _, some _ => .error (.invalidRequest "use only one client authentication method")
  | some (clientId, clientSecret), none =>
      if (params.get "client_id").any fun id => id ≠ clientId then .error .invalidClient
      else .ok { clientId, clientSecret := some clientSecret }
  | none, clientSecret =>
      match params.get "client_id" with
      | none => .error .invalidClient
      | some clientId => .ok { clientId, clientSecret }

/-- The stored client accepts the credentials. -/
def accepts (cr : Crates) (client : OAuthClient) (clientSecret : Option String) : Bool :=
  match clientSecret with
  | some secret => client.clientSecretHash.any fun stored =>
      constantTimeEq (utf8 (cr.hashToken secret)) (utf8 stored)
  | none => !client.isConfidential

/-- Verify credentials and return the authenticated client. -/
def authenticate (cr : Crates) (credentials : ClientCredentials) :
    Service AppError OAuthClient := do
  let client ← query (.clientsFindByClientId credentials.clientId)
  match client.filter OAuthClient.isActive with
  | some client =>
      if accepts cr client credentials.clientSecret then return client else .fail .invalidClient
  | none => .fail .invalidClient

end Client

end SharpOauth
