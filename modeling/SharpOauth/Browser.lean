import SharpOauth.Token

/-! # Requests from a browser

Headers, cookies, the double-submit CSRF token, and the responses of the server.  An HTML
page is represented by the data it is rendered from (`Page`). -/

namespace SharpOauth

/-- The headers the server reads, as raw bytes. -/
structure HeaderMap where
  authorization : Option (List UInt8)
  cookie : List (List UInt8)
deriving DecidableEq

/-- The text of a header value: visible ASCII and tabs only. -/
def headerText (value : List UInt8) : Option String :=
  if value.all fun b => (32 ≤ b.toNat && b.toNat < 127) || b == 9 then
    some (String.ofList (value.map fun b => Char.ofNat b.toNat))
  else none

def authorizationHeader (headers : HeaderMap) : Option String := headers.authorization.bind headerText

/-! ### Cookies -/

namespace CookieManager

/-- A cookie value from the request headers. -/
def get (headers : HeaderMap) (name : String) : Option String :=
  let values := headers.cookie.filterMap headerText
  let pairs := (values.flatMap (splitAll ';')).filterMap fun pair => splitOnce '=' (trim pair)
  ((pairs.find? fun p => p.1 = name).map Prod.snd).filter (· ≠ "")

theorem get_ne_empty {headers : HeaderMap} {name value : String}
    (h : get headers name = some value) : value ≠ "" := by
  have hfilter := (Option.filter_eq_some_iff.1 h).2
  simpa using hfilter

/-- A `Set-Cookie` header value. -/
def set (name value : String) (maxAge : Option Duration) (secure : Bool) : String :=
  name ++ "=" ++ value ++ "; Path=/; HttpOnly; SameSite=Lax" ++
    (match maxAge with
      | some maxAge => "; Max-Age=" ++ toString (Duration.numSeconds maxAge)
      | none => "") ++
    (if secure then "; Secure" else "")

/-- A `Set-Cookie` header value that deletes the cookie. -/
def clear (name : String) (secure : Bool) : String := set name "" (some 0) secure

end CookieManager

/-! ### CSRF -/

namespace Csrf

def csrfCookie : String := "sharp_csrf"

def csrfField : String := "csrf_token"

/-- A token to embed in a form, and the cookie to set if it is new. -/
structure CsrfToken where
  value : String
  setCookie : Option String

/-- Reuse the browser's CSRF cookie or create a new one. -/
def issue (headers : HeaderMap) (secure : Bool) (bytes : Vector UInt8 32) : CsrfToken :=
  match (CookieManager.get headers csrfCookie).filter fun value => (utf8 value).length = 43 with
  | some value => { value, setCookie := none }
  | none =>
      let value := generateToken bytes
      { value, setCookie := some (CookieManager.set csrfCookie value none secure) }

/-- The submitted form token matches the cookie. -/
def verify (headers : HeaderMap) (submitted : Option String) : Bool :=
  match CookieManager.get headers csrfCookie, submitted with
  | some cookie, some submitted => constantTimeEq (utf8 cookie) (utf8 submitted)
  | _, _ => false

end Csrf

/-! ### Forms and pages -/

/-- The sign-in form. -/
structure SignInForm where
  email : String
  password : String
  returnTo : Option String
  csrfToken : Option String

/-- The sign-up form. -/
structure SignUpForm where
  email : String
  password : String
  displayName : Option String
  returnTo : Option String
  csrfToken : Option String

/-- The create/edit application form. -/
structure AppForm where
  csrfToken : Option String := none
  name : String := ""
  /-- The textarea's raw text: one redirect URL per line. -/
  redirectUris : String := ""
  scopes : List String := []
  /-- `"public"` or `"confidential"`. -/
  clientType : String := ""
  /-- The checkbox on the delete form. -/
  confirm : Bool := false

structure DeveloperAppMessages where
  newSecret : Option String := none
  notice : Option String := none
  error : Option String := none

/-- The data an HTML page is rendered from. -/
inductive Page where
  | home (user : Option User) (csrf : String)
  | signIn (csrf : String) (returnTo : Option String) (email : String) (error : Option String)
  | signUp (csrf : String) (returnTo : Option String) (email displayName : String)
      (error : Option String)
  | consent (csrf clientName : String) (user : User) (scopes : List ScopeDescription)
      (requestFields : List (String × String))
  | developerApps (apps : List OAuthClient) (notice : Option String)
  | developerNewApp (csrf : String) (scopes : List ScopeDescription) (form : AppForm)
      (error : Option String)
  | developerApp (csrf issuer : String) (app : OAuthClient) (scopes : List ScopeDescription)
      (form : AppForm) (messages : DeveloperAppMessages)
  | error (title message : String)

/-! ### Responses -/

inductive Body where
  | redirect (location : String)
  | page (page : Page)
  | tokens (tokens : Token.TokenResponse)
  | oauthError (err : AppError)
  | empty

structure Response where
  status : ℕ
  body : Body
  setCookie : List String := []

/-- A `303 See Other` redirect. -/
def redirect (location : String) : Response := { status := 303, body := .redirect location }

/-- An HTML page. -/
def render (status : ℕ) (page : Page) : Response := { status, body := .page page }

def errorPage (status : ℕ) (title message : String) : Response := render status (.error title message)

/-- The generic error page. -/
def internalError : Response :=
  errorPage 500 "Something went wrong" "Please try again in a moment."

/-- The page shown when a form's CSRF token is missing or wrong. -/
def csrfFailure : Response :=
  errorPage 403 "Please try again"
    "This form expired or was submitted from another site. Go back, reload the page and try again."

/-- Attach the CSRF cookie if a new one was generated. -/
def withCsrfCookie (r : Response) (csrf : Csrf.CsrfToken) : Response :=
  { r with setCookie := r.setCookie ++ csrf.setCookie.toList }

/-- The response to a failed request of a client application. -/
def AppError.intoResponse (e : AppError) : Response := { status := e.status, body := .oauthError e }

end SharpOauth
