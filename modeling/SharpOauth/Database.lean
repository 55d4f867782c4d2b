import SharpOauth.Shared

/-! # The database

The rows of the seven tables, their primary keys and unique constraints, and every statement
the server runs, named after the repository module and function that builds it.

* `clash` holds the `PRIMARY KEY` and `UNIQUE` constraints of the migrations.
* Deleting a client (`deleteClient`) follows the foreign keys: its codes, consents and refresh
  tokens go with it (`ON DELETE CASCADE`), a surviving token forgets a deleted code
  (`ON DELETE SET NULL`), and a surviving token that points at a deleted successor forbids the
  whole statement (`NO ACTION`).
* Every row an `INSERT` refers to has been read by the same request, so the foreign keys of
  new rows are not checked again here. -/

namespace SharpOauth

/-! ### Rows -/

/-- A Sharpnr account. -/
structure User where
  id : Uuid
  /-- Lower-cased email address. -/
  email : String
  passwordHash : String
  displayName : Option String
  emailVerified : Bool
  createdAt : Instant
  updatedAt : Instant
deriving DecidableEq

/-- A browser session on the sign-in site. -/
structure Session where
  id : Uuid
  userId : Uuid
  sessionTokenHash : String
  expiresAt : Instant
  /-- The moment the user authenticated. -/
  createdAt : Instant
  revokedAt : Option Instant
deriving DecidableEq

/-- A scope and the sentence shown for it on the consent screen. -/
structure ScopeDescription where
  name : String
  description : String
deriving DecidableEq

/-- A registered application. -/
structure OAuthClient where
  /-- The primary key. -/
  id : Uuid
  /-- The public identifier clients send. -/
  clientId : String
  /-- `none` for public clients. -/
  clientSecretHash : Option String
  name : String
  redirectUris : List String
  allowedScopes : List String
  createdAt : Instant
  updatedAt : Instant
  disabledAt : Option Instant
  ownerUserId : Option Uuid
deriving DecidableEq

/-- A one-time authorization code. -/
structure AuthorizationCode where
  id : Uuid
  codeHash : String
  clientId : Uuid
  userId : Uuid
  redirectUri : String
  /-- Space-delimited granted scopes. -/
  scope : String
  codeChallenge : String
  codeChallengeMethod : String
  nonce : Option String
  authTime : Instant
  expiresAt : Instant
  createdAt : Instant
  /-- Set on first redemption. -/
  usedAt : Option Instant
deriving DecidableEq

/-- What a user approved for a client. -/
structure OAuthConsent where
  id : Uuid
  userId : Uuid
  clientId : Uuid
  scopes : List String
  createdAt : Instant
  updatedAt : Instant
  revokedAt : Option Instant
deriving DecidableEq

/-- One refresh token. -/
structure RefreshToken where
  id : Uuid
  tokenHash : String
  familyId : Uuid
  /-- The authorization code the family was born from. -/
  authorizationCodeId : Option Uuid
  clientId : Uuid
  userId : Uuid
  scope : String
  authTime : Instant
  expiresAt : Instant
  createdAt : Instant
  revokedAt : Option Instant
  /-- Set when the token was exchanged for a successor. -/
  rotatedToId : Option Uuid
deriving DecidableEq

/-! ### Tables and constraints -/

/-- The tables. -/
inductive Table where
  | users
  | sessions
  | scopes
  | clients
  | codes
  | consents
  | refreshTokens
deriving DecidableEq, Repr

/-- The rows of a table. -/
abbrev Row : Table → Type
  | .users => User
  | .sessions => Session
  | .scopes => ScopeDescription
  | .clients => OAuthClient
  | .codes => AuthorizationCode
  | .consents => OAuthConsent
  | .refreshTokens => RefreshToken

/-- The primary key. -/
def key : (t : Table) → Row t → Uuid ⊕ String
  | .users, (r : User) => .inl r.id
  | .sessions, (r : Session) => .inl r.id
  | .scopes, (r : ScopeDescription) => .inr r.name
  | .clients, (r : OAuthClient) => .inl r.id
  | .codes, (r : AuthorizationCode) => .inl r.id
  | .consents, (r : OAuthConsent) => .inl r.id
  | .refreshTokens, (r : RefreshToken) => .inl r.id

/-- Two rows that a primary key or a unique constraint keeps apart. -/
def clash : (t : Table) → Row t → Row t → Bool
  | .users, (r : User), (r' : User) => r.id = r'.id ∨ r.email = r'.email
  | .sessions, (r : Session), (r' : Session) =>
      r.id = r'.id ∨ r.sessionTokenHash = r'.sessionTokenHash
  | .scopes, (r : ScopeDescription), (r' : ScopeDescription) => r.name = r'.name
  | .clients, (r : OAuthClient), (r' : OAuthClient) => r.id = r'.id ∨ r.clientId = r'.clientId
  | .codes, (r : AuthorizationCode), (r' : AuthorizationCode) =>
      r.id = r'.id ∨ r.codeHash = r'.codeHash
  | .consents, (r : OAuthConsent), (r' : OAuthConsent) =>
      r.id = r'.id ∨ (r.userId = r'.userId ∧ r.clientId = r'.clientId)
  | .refreshTokens, (r : RefreshToken), (r' : RefreshToken) =>
      r.id = r'.id ∨ r.tokenHash = r'.tokenHash

/-! ### Statements -/

/-- The statements, one for each function of the `repo` modules, and the migration that adds
a scope to the registry. -/
inductive Stmt where
  | usersInsert (user : User)
  | usersFindByEmail (email : String)
  | usersFindById (id : Uuid)
  | sessionsInsert (session : Session)
  | sessionsFindActiveByHash (sessionTokenHash : String) (now : Instant)
  | sessionsRevokeByHash (sessionTokenHash : String) (now : Instant)
  | scopesListAll
  | scopesFindByNames (names : List String)
  | scopesInsert (scope : ScopeDescription)
  | clientsInsert (client : OAuthClient)
  | clientsFindByClientId (clientId : String)
  | clientsListByOwner (ownerUserId : Uuid)
  | clientsCountByOwner (ownerUserId : Uuid)
  | clientsFindOwned (ownerUserId : Uuid) (clientId : String)
  | clientsUpdateDetails (id : Uuid) (name : String) (redirectUris allowedScopes : List String)
      (now : Instant)
  | clientsUpdateSecretHash (id : Uuid) (secretHash : String) (now : Instant)
  | clientsDelete (id : Uuid)
  | codesInsert (code : AuthorizationCode)
  | codesClaim (codeHash : String) (now : Instant)
  | codesFindByHash (codeHash : String)
  | consentsFindActive (userId clientId : Uuid)
  | consentsUpsert (id userId clientId : Uuid) (scopes : List String) (now : Instant)
  | tokensInsert (token : RefreshToken)
  | tokensFindByHash (tokenHash : String)
  | tokensFindByHashForUpdate (tokenHash : String)
  | tokensMarkRotated (id rotatedToId : Uuid)
  | tokensRevokeFamily (familyId : Uuid) (now : Instant)
  | tokensRevokeByAuthorizationCode (authorizationCodeId : Uuid) (now : Instant)

/-- The result of a statement. -/
abbrev Ret : Stmt → Type
  | .usersFindByEmail _ | .usersFindById _ => Option User
  | .sessionsFindActiveByHash _ _ => Option Session
  | .scopesListAll | .scopesFindByNames _ => List ScopeDescription
  | .clientsFindByClientId _ | .clientsFindOwned _ _ => Option OAuthClient
  | .clientsListByOwner _ => List OAuthClient
  | .clientsCountByOwner _ => ℕ
  | .codesClaim _ _ | .codesFindByHash _ => Option AuthorizationCode
  | .consentsFindActive _ _ => Option (List String)
  | .tokensFindByHash _ | .tokensFindByHashForUpdate _ => Option RefreshToken
  | .tokensRevokeFamily _ _ | .tokensRevokeByAuthorizationCode _ _ => ℕ
  | _ => Unit

/-- The tables without a client and everything that goes with it. -/
def deleteClient (id : Uuid) (s : Store Row) : Option (Store Row) :=
  let codes : List AuthorizationCode := (s .codes).filter fun c => c.clientId = id
  let tokens : List RefreshToken := (s .refreshTokens).filter fun t => t.clientId = id
  let kept : List RefreshToken := (s .refreshTokens).filter fun t => t.clientId ≠ id
  if kept.any fun t => tokens.any fun t' => t.rotatedToId = some t'.id then none
  else some <| fun
    | .clients => (s .clients).filter fun c : OAuthClient => c.id ≠ id
    | .codes => (s .codes).filter fun c : AuthorizationCode => c.clientId ≠ id
    | .consents => (s .consents).filter fun c : OAuthConsent => c.clientId ≠ id
    | .refreshTokens => kept.map fun t =>
        if codes.any fun c => t.authorizationCodeId = some c.id then
          { t with authorizationCodeId := none }
        else t
    | t => s t

/-- What each statement reads, changes and returns. -/
def sem : (q : Stmt) → Sql Row (Ret q)
  | .usersInsert user => .insert .users user ()
  | .usersFindByEmail email => .select fun s => (s .users).find? fun r : User => r.email = email
  | .usersFindById id => .select fun s => (s .users).find? fun r : User => r.id = id
  | .sessionsInsert session => .insert .sessions session ()
  | .sessionsFindActiveByHash hash now => .select fun s =>
      (s .sessions).find? fun r : Session =>
        r.sessionTokenHash = hash ∧ r.revokedAt = none ∧ now < r.expiresAt
  | .sessionsRevokeByHash hash now =>
      .update .sessions (fun _ (r : Session) => r.sessionTokenHash = hash ∧ r.revokedAt = none)
        (fun r : Session => { r with revokedAt := some now }) fun _ => ()
  | .scopesListAll => .select fun s =>
      (s .scopes).insertionSort fun a b : ScopeDescription => a.name ≤ b.name
  | .scopesFindByNames names => .select fun s =>
      ((s .scopes).filter fun r : ScopeDescription => r.name ∈ names).insertionSort
        fun a b : ScopeDescription => a.name ≤ b.name
  | .scopesInsert scope => .insert .scopes scope ()
  | .clientsInsert client => .insert .clients client ()
  | .clientsFindByClientId clientId => .select fun s =>
      (s .clients).find? fun r : OAuthClient => r.clientId = clientId
  | .clientsListByOwner owner => .select fun s =>
      ((s .clients).filter fun r : OAuthClient => r.ownerUserId = some owner).insertionSort
        fun a b : OAuthClient => b.createdAt ≤ a.createdAt
  | .clientsCountByOwner owner => .select fun s =>
      (s .clients).countP fun r : OAuthClient => r.ownerUserId = some owner
  | .clientsFindOwned owner clientId => .select fun s =>
      (s .clients).find? fun r : OAuthClient => r.clientId = clientId ∧ r.ownerUserId = some owner
  | .clientsUpdateDetails id name redirectUris allowedScopes now =>
      .update .clients (fun _ (r : OAuthClient) => r.id = id)
        (fun r : OAuthClient => { r with name, redirectUris, allowedScopes, updatedAt := now })
        fun _ => ()
  | .clientsUpdateSecretHash id secretHash now =>
      .update .clients (fun _ (r : OAuthClient) => r.id = id)
        (fun r : OAuthClient => { r with clientSecretHash := some secretHash, updatedAt := now })
        fun _ => ()
  | .clientsDelete id => .delete (deleteClient id) ()
  | .codesInsert code => .insert .codes code ()
  | .codesClaim codeHash now =>
      .update .codes (fun _ (r : AuthorizationCode) => r.codeHash = codeHash ∧ r.usedAt = none)
        (fun r : AuthorizationCode => { r with usedAt := some now }) List.head?
  | .codesFindByHash codeHash => .select fun s =>
      (s .codes).find? fun r : AuthorizationCode => r.codeHash = codeHash
  | .consentsFindActive userId clientId => .select fun s =>
      ((s .consents).find? fun r : OAuthConsent =>
        r.userId = userId ∧ r.clientId = clientId ∧ r.revokedAt = none).map
          fun r : OAuthConsent => r.scopes
  | .consentsUpsert id userId clientId scopes now =>
      .upsert .consents
        (OAuthConsent.mk id userId clientId scopes now now none)
        (fun r : OAuthConsent => r.userId = userId ∧ r.clientId = clientId)
        (fun r : OAuthConsent => { r with scopes, updatedAt := now, revokedAt := none }) ()
  | .tokensInsert token => .insert .refreshTokens token ()
  | .tokensFindByHash tokenHash => .select fun s =>
      (s .refreshTokens).find? fun r : RefreshToken => r.tokenHash = tokenHash
  | .tokensFindByHashForUpdate tokenHash =>
      .lock .refreshTokens (fun _ (r : RefreshToken) => r.tokenHash = tokenHash) List.head?
  | .tokensMarkRotated id rotatedToId =>
      .update .refreshTokens (fun _ (r : RefreshToken) => r.id = id)
        (fun r : RefreshToken => { r with rotatedToId := some rotatedToId }) fun _ => ()
  | .tokensRevokeFamily familyId now =>
      .update .refreshTokens
        (fun _ (r : RefreshToken) => r.familyId = familyId ∧ r.revokedAt = none)
        (fun r : RefreshToken => { r with revokedAt := some now }) List.length
  | .tokensRevokeByAuthorizationCode codeId now =>
      .update .refreshTokens
        (fun s (r : RefreshToken) =>
          ((s .refreshTokens).any fun b : RefreshToken =>
            b.authorizationCodeId = some codeId ∧ b.familyId = r.familyId) ∧ r.revokedAt = none)
        (fun r : RefreshToken => { r with revokedAt := some now }) List.length

/-- The database of the server. -/
abbrev Sharp : Schema where
  Table := Table
  Row := Row
  Key := Uuid ⊕ String
  Stmt := Stmt
  Ret := Ret
  key := key
  clash := clash
  sem := sem
  decTable := inferInstance
  decKey := inferInstance

/-- Programs over the database of the server. -/
abbrev Service (ε α : Type) : Type := Handler Sharp ε α

/-- Run one statement of the server. -/
abbrev query {ε : Type} [Into SqlError ε] (q : Stmt) : Service ε (Ret q) := Handler.query (S := Sharp) q

/-- The contents of the tables. -/
abbrev Db : Type := Store Row

namespace Db

abbrev users (db : Db) : List User := db .users
abbrev sessions (db : Db) : List Session := db .sessions
abbrev scopes (db : Db) : List ScopeDescription := db .scopes
abbrev clients (db : Db) : List OAuthClient := db .clients
abbrev codes (db : Db) : List AuthorizationCode := db .codes
abbrev consents (db : Db) : List OAuthConsent := db .consents
abbrev refreshTokens (db : Db) : List RefreshToken := db .refreshTokens

/-- The tables after the migrations: only the scope registry has rows. -/
def init : Db
  | .scopes =>
      [⟨"openid", "Sign you in with your Sharpnr account"⟩,
        ⟨"profile", "See your display name"⟩,
        ⟨"email", "See your email address"⟩,
        ⟨"offline_access", "Stay connected when you are not using the app"⟩]
  | .users | .sessions | .clients | .codes | .consents | .refreshTokens => []

end Db

end SharpOauth
