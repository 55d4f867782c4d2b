import SharpOauth.Accounts

/-! # The developer portal

A signed-in user's applications.  Without a session the browser is sent to `/signin`, and an
application of another user is answered like one that does not exist. -/

namespace SharpOauth

namespace AppForm

/-- The loop of `fromPairs`. -/
def collect (form : AppForm) : List (String × String) → AppForm
  | [] => form
  | (name, value) :: rest =>
      let form :=
        if name = "csrf_token" ∧ form.csrfToken = none then { form with csrfToken := some value }
        else if name = "name" then { form with name := value }
        else if name = "redirect_uris" then { form with redirectUris := value }
        else if name = "scope" ∧ value ∉ form.scopes then
          { form with scopes := form.scopes ++ [value] }
        else if name = "client_type" then { form with clientType := value }
        else if name = "confirm" then { form with confirm := value = "yes" }
        else form
      form.collect rest

def fromPairs (pairs : List (String × String)) : AppForm := collect {} pairs

/-- The form's current values for an existing application. -/
def fromClient (c : OAuthClient) : AppForm :=
  { name := c.name
    redirectUris := "\n".intercalate c.redirectUris
    scopes := c.allowedScopes
    clientType := if c.isConfidential then "confidential" else "public" }

/-- Anything other than an explicit `public` gets a secret. -/
def isPublic (form : AppForm) : Bool := form.clientType == "public"

/-- Non-empty lines of the textarea, trimmed. -/
def redirectUriList (form : AppForm) : List String :=
  ((lines form.redirectUris).map trim).filter (· ≠ "")

def scopeSet (form : AppForm) : ScopeSet := ScopeSet.ofList form.scopes

end AppForm

namespace Apps

open Client (RegistrationError RegisteredClient maxNameLen maxRedirectUris)

/-- How many applications one user may register. -/
def maxAppsPerUser : ℕ := 25

/-- Why saving an application failed. -/
inductive AppFormError where
  | limitReached
  | invalid (message : String)
  | database (err : SqlError)
deriving DecidableEq, Repr

instance : Into SqlError AppFormError := ⟨.database⟩

/-- The registration errors, written for a person. -/
def AppFormError.ofRegistration : RegistrationError → AppFormError
  | .database err => .database err
  | .emptyName => .invalid "Please enter an application name."
  | .nameTooLong =>
      .invalid ("The application name must be at most " ++ toString maxNameLen ++ " characters.")
  | .noRedirectUris => .invalid "Add at least one redirect URL."
  | .tooManyRedirectUris =>
      .invalid ("You can register at most " ++ toString maxRedirectUris ++ " redirect URLs.")
  | .invalidRedirectUri uri reason => .invalid ("Redirect URL " ++ uri ++ " " ++ reason ++ ".")
  | .noScopes => .invalid "Choose at least one scope."
  | .unknownScopes scopes => .invalid ("Unknown scopes: " ++ ", ".intercalate scopes ++ ".")

instance : Into RegistrationError AppFormError := ⟨AppFormError.ofRegistration⟩

/-- The message shown on the page. -/
def AppFormError.message : AppFormError → String
  | .limitReached => "You can register at most " ++ toString maxAppsPerUser ++
      " applications. Delete one to add another."
  | .invalid message => message
  | .database _ => "database error"

def create (cr : Crates) (d : Draws) (owner : User) (form : AppForm) :
    Service AppFormError RegisteredClient := do
  let count ← query (.clientsCountByOwner owner.id)
  if count ≥ maxAppsPerUser then .fail .limitReached
  else
    (Client.register cr d
      { name := form.name
        redirectUris := form.redirectUriList
        scopes := form.scopeSet
        confidential := !form.isPublic
        ownerUserId := some owner.id }).lift

def update (cr : Crates) (d : Draws) (app : OAuthClient) (form : AppForm) :
    Service AppFormError Unit :=
  (Client.updateDetails cr d app ⟨form.name, form.redirectUriList, form.scopeSet⟩).lift

/-! ### Pages -/

/-- The redirect to the sign-in page for a request without a session. -/
def signInRedirect (returnTo : String) : Response :=
  redirect ("/signin?" ++ formAppend "" [("return_to", returnTo)])

/-- Run a handler as the signed-in user. -/
def signedInUser (st : AppState) (d : Draws) (headers : HeaderMap) (returnTo : String)
    (handler : User → Service AppError Response) : Service AppError Response := do
  match ← currentSession st.toCrates d headers with
  | some (_, user) => handler user
  | none => return signInRedirect returnTo

/-- Run a handler on the application `clientId`, if `user` owns it. -/
def ownedApp (user : User) (clientId : String)
    (handler : OAuthClient → Service AppError Response) : Service AppError Response := do
  match ← query (.clientsFindOwned user.id clientId) with
  | some app => handler app
  | none =>
      return errorPage 404 "Application not found"
        "It may have been deleted, or it belongs to a different Sharpnr account."

def newAppForm (st : AppState) (d : Draws) (headers : HeaderMap) (status : ℕ) (form : AppForm)
    (error : Option String) : Service AppError Response := do
  let scopes ← query .scopesListAll
  let csrf := Csrf.issue headers st.secureCookies (d.secret 2)
  return withCsrfCookie (render status (.developerNewApp csrf.value scopes form error)) csrf

def appPage (st : AppState) (d : Draws) (headers : HeaderMap) (status : ℕ) (app : OAuthClient)
    (form : AppForm) (messages : DeveloperAppMessages) : Service AppError Response := do
  let scopes ← query .scopesListAll
  let csrf := Csrf.issue headers st.secureCookies (d.secret 2)
  return withCsrfCookie
    (render status (.developerApp csrf.value st.issuer app scopes form messages)) csrf

/-- `GET /developer/apps` -/
def listPage (st : AppState) (d : Draws) (headers : HeaderMap) (path : String)
    (notice : Option String) : Service AppError Response :=
  signedInUser st d headers path fun user => do
    let apps ← query (.clientsListByOwner user.id)
    let notice :=
      if notice = some "deleted" then some "Application deleted. Its tokens no longer work."
      else none
    return render 200 (.developerApps apps notice)

/-- `GET /developer/apps/new` -/
def newPage (st : AppState) (d : Draws) (headers : HeaderMap) (path : String) :
    Service AppError Response :=
  signedInUser st d headers path fun _ =>
    newAppForm st d headers 200 { scopes := ["openid"], clientType := "confidential" } none

/-- `POST /developer/apps` -/
def createPage (st : AppState) (d : Draws) (headers : HeaderMap) (pairs : List (String × String)) :
    Service AppError Response :=
  signedInUser st d headers "/" fun user => do
    let form := AppForm.fromPairs pairs
    if !Csrf.verify headers form.csrfToken then return csrfFailure
    else
      match ← (create st.toCrates d user form).attempt with
      | .ok registered =>
          let notice :=
            if registered.clientSecret.isSome then
              "Application created. Copy the client secret now: it will not be shown again."
            else "Application created."
          appPage st d headers 201 registered.client (.fromClient registered.client)
            { newSecret := registered.clientSecret, notice := some notice }
      | .error (.database e) => .fail (.database e)
      | .error e => newAppForm st d headers 422 form (some e.message)

/-- `GET /developer/apps/{client_id}` -/
def showPage (st : AppState) (d : Draws) (headers : HeaderMap) (path clientId : String)
    (notice : Option String) : Service AppError Response :=
  signedInUser st d headers path fun user =>
    ownedApp user clientId fun app =>
      let notice := if notice = some "saved" then some "Changes saved." else none
      appPage st d headers 200 app (.fromClient app) { notice }

/-- `POST /developer/apps/{client_id}` -/
def updatePage (st : AppState) (d : Draws) (headers : HeaderMap) (clientId : String)
    (pairs : List (String × String)) : Service AppError Response :=
  signedInUser st d headers "/" fun user =>
    ownedApp user clientId fun app => do
      let form := AppForm.fromPairs pairs
      if !Csrf.verify headers form.csrfToken then return csrfFailure
      else
        match ← (update st.toCrates d app form).attempt with
        | .ok () => return redirect ("/developer/apps/" ++ app.clientId ++ "?notice=saved")
        | .error (.database e) => .fail (.database e)
        | .error e => appPage st d headers 422 app form { error := some e.message }

/-- `POST /developer/apps/{client_id}/secret` -/
def rotateSecretPage (st : AppState) (d : Draws) (headers : HeaderMap) (clientId : String)
    (pairs : List (String × String)) : Service AppError Response :=
  signedInUser st d headers "/" fun user =>
    ownedApp user clientId fun app => do
      if !Csrf.verify headers (AppForm.fromPairs pairs).csrfToken then return csrfFailure
      else
        match ← (Client.rotateSecret st.toCrates d app).lift with
        | some secret =>
            appPage st d headers 200 app (.fromClient app)
              { newSecret := some secret
                notice := some "New client secret created. The old secret has stopped working." }
        | none => return redirect ("/developer/apps/" ++ app.clientId)

/-- `POST /developer/apps/{client_id}/delete` -/
def deletePage (st : AppState) (d : Draws) (headers : HeaderMap) (clientId : String)
    (pairs : List (String × String)) : Service AppError Response :=
  signedInUser st d headers "/" fun user =>
    ownedApp user clientId fun app => do
      let form := AppForm.fromPairs pairs
      if !Csrf.verify headers form.csrfToken then return csrfFailure
      else if !form.confirm then
        appPage st d headers 422 app (.fromClient app)
          { error := some "Tick the confirmation box to delete this application." }
      else
        (Client.delete app).lift
        return redirect "/developer/apps?notice=deleted"

end Apps

end SharpOauth
