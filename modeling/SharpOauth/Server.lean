import SharpOauth.Developer

/-! # The server

Every request the server and its command line answer, the response to each (`respond`), and
runs: sequences of requests, each served from beginning to end before the next.

A run starts from the tables the migrations leave behind.  Time does not go backwards between
requests, and UUIDs and random secrets never repeat (`Fresh`). -/

namespace SharpOauth

open Authorization

/-! ### The browser-facing OAuth endpoints -/

def repeatedParameterPage : Response :=
  errorPage 400 "This sign-in link is not valid" "A request parameter was included more than once."

def authorizationError (st : AppState) : AuthorizationError → Response
  | .unsafeLink message => errorPage 400 "This sign-in link is not valid" message
  | .redirect e =>
      match e.toUrl st with
      | .ok url => redirect url
      | .error _ => internalError
  | .internal _ => internalError

/-- `GET` and `POST /oauth/authorize` -/
def authorize (st : AppState) (d : Draws) (headers : HeaderMap) (pairs : List (String × String)) :
    Service AppError Response := do
  let session ← currentSession st.toCrates d headers
  match Params.fromPairs pairs with
  | .error _ => return repeatedParameterPage
  | .ok params =>
      let request := AuthorizationRequest.fromParams params
      match ← (Authorization.decide st d request session).attempt with
      | .ok (.signIn returnTo) => return Apps.signInRedirect returnTo
      | .ok (.askConsent v user scopes) =>
          let csrf := Csrf.issue headers st.secureCookies (d.secret 2)
          return withCsrfCookie
            (render 200 (.consent csrf.value v.client.name user scopes request.toPairs)) csrf
      | .ok (.redirectToClient url) => return redirect url
      | .error err => return authorizationError st err

/-- `POST /oauth/consent` -/
def consent (st : AppState) (d : Draws) (headers : HeaderMap) (pairs : List (String × String)) :
    Service AppError Response := do
  let session ← currentSession st.toCrates d headers
  match Params.fromPairs pairs with
  | .error _ => return repeatedParameterPage
  | .ok params =>
      if !Csrf.verify headers (params.get Csrf.csrfField) then return csrfFailure
      else
        let request := AuthorizationRequest.fromParams params
        match session with
        | none => return Apps.signInRedirect request.toPath
        | some (session, user) =>
            let approved := params.get "decision" = some "approve"
            match ← (completeConsent st d request approved session user).attempt with
            | .ok url => return redirect url
            | .error err => return authorizationError st err

/-! ### The endpoints for client applications -/

def notAForm : AppError :=
  .invalidRequest "the body must be application/x-www-form-urlencoded"

/-- `POST /oauth/token`; `none` stands for a body that is not a form. -/
def token (st : AppState) (d : Draws) (headers : HeaderMap) (form : Option (List (String × String))) :
    Service Empty Response := do
  match form with
  | some pairs =>
      match ← (Token.handle st d (authorizationHeader headers) pairs).attempt with
      | .ok tokens => return { status := 200, body := .tokens tokens }
      | .error e => return e.intoResponse
  | none => return notAForm.intoResponse

/-- `POST /oauth/revoke` -/
def revoke (st : AppState) (d : Draws) (headers : HeaderMap)
    (form : Option (List (String × String))) : Service Empty Response := do
  match form with
  | some pairs =>
      match ← (Revocation.handle st d (authorizationHeader headers) pairs).attempt with
      | .ok () => return { status := 200, body := .empty }
      | .error e => return e.intoResponse
  | none => return notAForm.intoResponse

/-! ### The command line and the migrations -/

/-- `sharp-oauth create-client` -/
def createClient (st : AppState) (d : Draws) (name : String) (redirectUris : List String)
    (scopes : String) (isPublic : Bool) : Service Empty Response := do
  match ScopeSet.parse scopes with
  | .error _ => return { status := 1, body := .empty }
  | .ok scopes =>
      match ← (Client.register st.toCrates d
          { name, redirectUris, scopes, confidential := !isPublic, ownerUserId := none }).attempt with
      | .ok _ => return { status := 0, body := .empty }
      | .error _ => return { status := 1, body := .empty }

/-- A migration that adds a scope to the registry. -/
def addScope (scope : ScopeDescription) : Service Empty Response := do
  match ← (query (ε := SqlError) (.scopesInsert scope)).attempt with
  | .ok () => return { status := 0, body := .empty }
  | .error _ => return { status := 1, body := .empty }

/-! ### Requests -/

/-- The requests. -/
inductive Request where
  | authorize (headers : HeaderMap) (pairs : List (String × String))
  | consent (headers : HeaderMap) (pairs : List (String × String))
  | token (headers : HeaderMap) (form : Option (List (String × String)))
  | revoke (headers : HeaderMap) (form : Option (List (String × String)))
  | home (headers : HeaderMap)
  | signInPage (headers : HeaderMap) (returnTo : Option String)
  | signIn (headers : HeaderMap) (form : SignInForm)
  | signUpPage (headers : HeaderMap) (returnTo : Option String)
  | signUp (headers : HeaderMap) (form : SignUpForm)
  | logout (headers : HeaderMap) (csrfToken : Option String)
  | appList (headers : HeaderMap) (path : String) (notice : Option String)
  | appNew (headers : HeaderMap) (path : String)
  | appCreate (headers : HeaderMap) (pairs : List (String × String))
  | appShow (headers : HeaderMap) (path clientId : String) (notice : Option String)
  | appUpdate (headers : HeaderMap) (clientId : String) (pairs : List (String × String))
  | appRotateSecret (headers : HeaderMap) (clientId : String) (pairs : List (String × String))
  | appDelete (headers : HeaderMap) (clientId : String) (pairs : List (String × String))
  | createClient (name : String) (redirectUris : List String) (scopes : String) (isPublic : Bool)
  | addScope (scope : ScopeDescription)

/-- A handler of a browser request: its errors become the generic error page. -/
def orInternalError (p : Service AppError Response) : Service Empty Response := do
  match ← p.attempt with
  | .ok r => return r
  | .error _ => return internalError

/-- The response to a request. -/
def respond (st : AppState) (d : Draws) : Request → Service Empty Response
  | .authorize headers pairs => orInternalError (authorize st d headers pairs)
  | .consent headers pairs => orInternalError (consent st d headers pairs)
  | .token headers form => token st d headers form
  | .revoke headers form => revoke st d headers form
  | .home headers => orInternalError (Pages.home st d headers)
  | .signInPage headers returnTo => return Pages.signInPage st d headers returnTo
  | .signIn headers form => orInternalError (Pages.signIn st d headers form)
  | .signUpPage headers returnTo => return Pages.signUpPage st d headers returnTo
  | .signUp headers form => orInternalError (Pages.signUp st d headers form)
  | .logout headers csrfToken => orInternalError (Pages.logout st d headers csrfToken)
  | .appList headers path notice => orInternalError (Apps.listPage st d headers path notice)
  | .appNew headers path => orInternalError (Apps.newPage st d headers path)
  | .appCreate headers pairs => orInternalError (Apps.createPage st d headers pairs)
  | .appShow headers path clientId notice =>
      orInternalError (Apps.showPage st d headers path clientId notice)
  | .appUpdate headers clientId pairs => orInternalError (Apps.updatePage st d headers clientId pairs)
  | .appRotateSecret headers clientId pairs =>
      orInternalError (Apps.rotateSecretPage st d headers clientId pairs)
  | .appDelete headers clientId pairs => orInternalError (Apps.deletePage st d headers clientId pairs)
  | .createClient name redirectUris scopes isPublic =>
      createClient st d name redirectUris scopes isPublic
  | .addScope scope => addScope scope

/-- The result of a program that has no errors. -/
def Prog.value {α : Type} : Except Empty α → α
  | .ok a => a
  | .error e => e.elim

/-- Serve one request; `faults` tells which of its database calls fail. -/
def serve (st : AppState) (d : Draws) (faults : List Bool) (req : Request) (db : Db) :
    Response × Db :=
  let r := (respond st d req).serve faults db
  (Prog.value r.1, r.2)

/-! ### Runs -/

/-- One served request. -/
structure Event where
  req : Request
  draws : Draws
  faults : List Bool
  /-- The tables before the request. -/
  before : Db
  response : Response

/-- The draws of a new request after the events `es`: time has not gone backwards, and UUIDs
and secrets are new. -/
structure Fresh (es : List Event) (d : Draws) : Prop where
  uuid_inj : Function.Injective d.uuid
  secret_inj : Function.Injective d.secret
  clock : ∀ e ∈ es, e.draws.now ≤ d.now
  uuid_new : ∀ e ∈ es, ∀ i j, e.draws.uuid i ≠ d.uuid j
  secret_new : ∀ e ∈ es, ∀ i j, e.draws.secret i ≠ d.secret j

/-- `Run st es db`: the server served the requests `es`, the latest first, and the tables are
now `db`. -/
inductive Run (st : AppState) : List Event → Db → Prop where
  | init : Run st [] Db.init
  | step {es : List Event} {db : Db} (run : Run st es db) (req : Request) (d : Draws)
      (faults : List Bool) (fresh : Fresh es d) :
      Run st (⟨req, d, faults, db, (serve st d faults req db).1⟩ :: es) (serve st d faults req db).2

/-- The tables some run leads to. -/
def Reachable (st : AppState) (db : Db) : Prop := ∃ es, Run st es db

end SharpOauth
