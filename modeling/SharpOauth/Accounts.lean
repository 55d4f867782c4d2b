import SharpOauth.Browser

/-! # Accounts and sessions

Sign-up, sign-in and logout.  A browser session is a random token in a cookie; the table holds
its hash, the user, and the moment the user authenticated. -/

namespace SharpOauth

/-! ### Browser sessions -/

namespace Session

def sessionCookie : String := "sharp_session"

/-- How long a sign-in lasts. -/
def sessionTtl : Duration := Duration.days 7

/-- The row of a new session. -/
def fresh (cr : Crates) (d : Draws) (user : User) : Session where
  id := d.uuid 1
  userId := user.id
  sessionTokenHash := cr.hashToken (generateToken (d.secret 0))
  expiresAt := d.now + sessionTtl
  createdAt := d.now
  revokedAt := none

/-- Start a session; the result is the raw token for the cookie. -/
def create (cr : Crates) (d : Draws) (user : User) : Service AppError (String × Session) := do
  query (.sessionsInsert (fresh cr d user))
  return (generateToken (d.secret 0), fresh cr d user)

/-- The active session of a raw cookie value, and its user. -/
def findActive (cr : Crates) (d : Draws) (token : String) :
    Service AppError (Option (Session × User)) := do
  match ← query (.sessionsFindActiveByHash (cr.hashToken token) d.now) with
  | none => return none
  | some session =>
      match ← query (.usersFindById session.userId) with
      | none => return none
      | some user => return some (session, user)

/-- End a session. -/
def revoke (cr : Crates) (d : Draws) (token : String) : Service AppError Unit :=
  query (.sessionsRevokeByHash (cr.hashToken token) d.now)

end Session

/-- Who is signed in. -/
def currentSession (cr : Crates) (d : Draws) (headers : HeaderMap) :
    Service AppError (Option (Session × User)) :=
  match CookieManager.get headers Session.sessionCookie with
  | none => return none
  | some token => Session.findActive cr d token

/-! ### User accounts -/

namespace Account

def minPasswordChars : ℕ := 8

def maxPasswordBytes : ℕ := 1024

def maxDisplayNameChars : ℕ := 100

/-- Input for `signUp`. -/
structure NewAccount where
  email : String
  password : String
  displayName : Option String

/-- Why a sign-up was refused. -/
inductive SignUpError where
  | invalidEmail
  | invalidPassword
  | invalidDisplayName
  | emailTaken
  | internal (err : AppError)
deriving DecidableEq, Repr

/-- The message shown to the user. -/
def SignUpError.message : SignUpError → String
  | invalidEmail => "Please enter a valid email address."
  | invalidPassword => "Password must be between 8 and 1024 characters."
  | invalidDisplayName => "Display name must be at most 100 characters."
  | emailTaken => "An account with this email already exists."
  | internal e => e.code

/-- Trim and lower-case an email; `none` if it is clearly invalid. -/
def normalizeEmail (cr : Crates) (raw : String) : Option String := do
  let email := cr.toLowercase (trim raw)
  let (localPart, domain) ← splitOnce '@' email
  if localPart ≠ "" ∧ '.' ∈ domain.toList ∧ domain.toList.head? ≠ some '.' ∧
      domain.toList.getLast? ≠ some '.' ∧ '@' ∉ domain.toList ∧ (utf8 email).length ≤ 254 ∧
      email.toList.all (fun c => !isWhitespace c && !isControl c) then
    some email
  else none

/-- The row of a new user. -/
def newUser (d : Draws) (email passwordHash : String) (displayName : Option String) : User where
  id := d.uuid 0
  email := email
  passwordHash := passwordHash
  displayName := displayName
  emailVerified := false
  createdAt := d.now
  updatedAt := d.now

/-- Create a new account. -/
def signUp (cr : Crates) (d : Draws) (account : NewAccount) : Service SignUpError User := do
  let email ← Prog.okOr (normalizeEmail cr account.email) .invalidEmail
  if account.password.toList.length < minPasswordChars ∨
      (utf8 account.password).length > maxPasswordBytes then .fail .invalidPassword
  else
    let displayName := (account.displayName.map trim).filter (· ≠ "")
    if displayName.any fun name => name.toList.length > maxDisplayNameChars then
      .fail .invalidDisplayName
    else
      let passwordHash ← Prog.ofExcept ((cr.hashPassword d.salt account.password).mapError
        fun e => SignUpError.internal (.internal e))
      let user := newUser d email passwordHash displayName
      match ← Prog.attempt (query (ε := SqlError) (.usersInsert user)) with
      | .ok () => return user
      | .error .duplicate => .fail .emailTaken
      | .error e => .fail (.internal (.database e))

/-- The user of a normalised email, if the email has an account. -/
def findByRawEmail (cr : Crates) (email : String) : Service AppError (Option User) :=
  match normalizeEmail cr email with
  | some email => query (.usersFindByEmail email)
  | none => return none

/-- Verify an email and password. -/
def authenticate (st : AppState) (email password : String) : Service AppError (Option User) := do
  let user ← findByRawEmail st.toCrates email
  -- Argon2 runs even for unknown emails.
  let hash := match user with
    | some user => user.passwordHash
    | none => st.dummyPasswordHash
  let passwordOk ← Prog.ofExcept ((st.verifyPassword password hash).mapError AppError.internal)
  return user.filter fun _ => passwordOk

end Account

/-! ### Pages -/

namespace Pages

/-- Only paths on this server. -/
def safeReturnTo (candidate : String) : String :=
  let chars := candidate.toList
  if ['/'].isPrefixOf chars ∧ ¬['/', '/'].isPrefixOf chars ∧ '\\' ∉ chars ∧
      chars.all (fun c => !isControl c) then candidate
  else "/"

/-- A new session cookie for `user`, and a redirect to `returnTo`. -/
def startSession (st : AppState) (d : Draws) (headers : HeaderMap) (user : User)
    (returnTo : String) : Service AppError Response := do
  match CookieManager.get headers Session.sessionCookie with
  | some old => Session.revoke st.toCrates d old
  | none => pure ()
  let (token, _) ← Session.create st.toCrates d user
  return { redirect returnTo with
    setCookie := [CookieManager.set Session.sessionCookie token (some Session.sessionTtl)
      st.secureCookies] }

/-- `GET /` -/
def home (st : AppState) (d : Draws) (headers : HeaderMap) : Service AppError Response := do
  let session ← currentSession st.toCrates d headers
  let csrf := Csrf.issue headers st.secureCookies (d.secret 2)
  return withCsrfCookie (render 200 (.home (session.map Prod.snd) csrf.value)) csrf

/-- `GET /signin` -/
def signInPage (st : AppState) (d : Draws) (headers : HeaderMap) (returnTo : Option String) :
    Response :=
  let csrf := Csrf.issue headers st.secureCookies (d.secret 2)
  withCsrfCookie (render 200 (.signIn csrf.value (returnTo.map safeReturnTo) "" none)) csrf

/-- `POST /signin` -/
def signIn (st : AppState) (d : Draws) (headers : HeaderMap) (form : SignInForm) :
    Service AppError Response := do
  if !Csrf.verify headers form.csrfToken then return csrfFailure
  else
    let returnTo := safeReturnTo (form.returnTo.getD "/")
    match ← Account.authenticate st form.email form.password with
    | some user => startSession st d headers user returnTo
    | none =>
        let csrf := Csrf.issue headers st.secureCookies (d.secret 2)
        return withCsrfCookie (render 401
          (.signIn csrf.value (some returnTo) form.email (some "Invalid email or password."))) csrf

/-- `GET /signup` -/
def signUpPage (st : AppState) (d : Draws) (headers : HeaderMap) (returnTo : Option String) :
    Response :=
  let csrf := Csrf.issue headers st.secureCookies (d.secret 2)
  withCsrfCookie (render 200 (.signUp csrf.value (returnTo.map safeReturnTo) "" "" none)) csrf

/-- `POST /signup` -/
def signUp (st : AppState) (d : Draws) (headers : HeaderMap) (form : SignUpForm) :
    Service AppError Response := do
  if !Csrf.verify headers form.csrfToken then return csrfFailure
  else
    let returnTo := safeReturnTo (form.returnTo.getD "/")
    match ← (Account.signUp st.toCrates d ⟨form.email, form.password, form.displayName⟩).attempt with
    | .ok user => startSession st d headers user returnTo
    | .error (.internal e) => .fail e
    | .error e =>
        let csrf := Csrf.issue headers st.secureCookies (d.secret 2)
        return withCsrfCookie (render 422 (.signUp csrf.value (some returnTo) form.email
          (form.displayName.getD "") (some e.message))) csrf

/-- `POST /logout` -/
def logout (st : AppState) (d : Draws) (headers : HeaderMap) (csrfToken : Option String) :
    Service AppError Response := do
  if !Csrf.verify headers csrfToken then return csrfFailure
  else
    match CookieManager.get headers Session.sessionCookie with
    | some token => Session.revoke st.toCrates d token
    | none => pure ()
    return { redirect "/" with
      setCookie := [CookieManager.clear Session.sessionCookie st.secureCookies] }

end Pages

end SharpOauth
