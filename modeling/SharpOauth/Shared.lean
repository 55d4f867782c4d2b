import SharpOauth.Sql
import SharpOauth.Encoding

/-! # What every part of the server shares

Time, identifiers, secrets, the errors of the machine-to-machine endpoints, and the code the
server calls but does not contain: SHA-256, the `url` crate, Argon2 and JWT signing are
parameters (`Crates`).

Everything a request draws from its surroundings is one record (`Draws`): the clock, which
stands still while the request runs, UUIDs and random bytes. -/

namespace SharpOauth

/-! ### Time -/

/-- An instant in microseconds since the Unix epoch, the resolution of `TIMESTAMPTZ`. -/
abbrev Instant : Type := ℤ

/-- A length of time in microseconds. -/
abbrev Duration : Type := ℤ

namespace Duration

def seconds (n : ℤ) : Duration := n * 1000000

def minutes (n : ℤ) : Duration := seconds (n * 60)

def days (n : ℤ) : Duration := minutes (n * 1440)

/-- Whole seconds, towards zero. -/
def numSeconds (d : Duration) : ℤ := Int.tdiv d 1000000

end Duration

/-- The Unix time of an instant. -/
def timestamp (t : Instant) : ℤ := t / 1000000

/-! ### Identifiers and secrets -/

/-- A UUID. -/
structure Uuid where
  val : BitVec 128
deriving DecidableEq, Repr

/-- `n` lower-case hexadecimal digits of `v`. -/
def hexDigits : ℕ → ℕ → List Char
  | 0, _ => []
  | n + 1, v => hexDigits n (v / 16) ++ ["0123456789abcdef".toList.getD (v % 16) '0']

/-- The hyphenated form. -/
def Uuid.toString (u : Uuid) : String :=
  let d := hexDigits 32 u.val.toNat
  String.ofList (d.take 8 ++ '-' :: (d.drop 8).take 4 ++ '-' :: (d.drop 12).take 4 ++
    '-' :: (d.drop 16).take 4 ++ '-' :: d.drop 20)

/-- The draws of a request are numbered from zero. -/
instance Draws.neZero : NeZero 3 := ⟨by decide⟩

/-- What a request draws from its surroundings. -/
structure Draws where
  /-- The clock. -/
  now : Instant
  /-- The results of `Uuid::now_v7`. -/
  uuid : Fin 3 → Uuid
  /-- The random bytes of `generate_token`. -/
  secret : Fin 3 → Vector UInt8 32
  /-- The salt of a password hash. -/
  salt : List UInt8

/-! ### Code outside the repository -/

/-- A host of a URL. -/
inductive Host where
  | domain (name : String)
  | ipv4 (address : BitVec 32)
  | ipv6 (address : BitVec 128)
deriving DecidableEq, Repr

/-- A parsed URL. -/
structure Url where
  scheme : String
  username : String
  password : Option String
  host : Option Host
  port : Option ℕ
  path : String
  query : Option String
  fragment : Option String
deriving DecidableEq, Repr

/-- A value in the payload of a JWT. -/
inductive ClaimValue where
  | str (s : String)
  | int (n : ℤ)
deriving DecidableEq, Repr

/-- The libraries the server is linked with. -/
structure Crates where
  sha256 : List UInt8 → Vector UInt8 32
  /-- `Url::parse` -/
  parseUrl : String → Option Url
  /-- `String::from(url)` -/
  urlToString : Url → String
  /-- `str::to_lowercase` -/
  toLowercase : String → String
  /-- Argon2id of a password with the given salt, as a PHC string. -/
  hashPassword : List UInt8 → String → Except String String
  /-- Whether a password is the one a PHC string was made from. -/
  verifyPassword : String → String → Except String Bool

/-- The application context. -/
structure AppState extends Crates where
  issuer : String
  /-- Sign a JWT of the given `typ` with the active key. -/
  sign : String → List (String × ClaimValue) → Except String String
  /-- The hash that stands in for the one of an unknown account. -/
  dummyPasswordHash : String

/-- Cookies carry `Secure` when the issuer is an `https` URL. -/
def AppState.secureCookies (st : AppState) : Bool := "https://".isPrefixOf st.issuer

/-- A new random secret, base64url encoded. -/
def generateToken (bytes : Vector UInt8 32) : String := base64url bytes.toList

/-- The form in which a secret is stored and looked up. -/
def Crates.hashToken (cr : Crates) (token : String) : String :=
  base64url (cr.sha256 (utf8 token)).toList

/-- Comparison of byte strings. -/
def constantTimeEq (a b : List UInt8) : Bool := a == b

theorem generateToken_inj {a b : Vector UInt8 32} (h : generateToken a = generateToken b) : a = b :=
  Vector.toList_inj.1 (base64url_inj h)

/-- A character of a token. -/
theorem token_chars {bytes : Vector UInt8 32} {c : Char} (h : c ∈ (generateToken bytes).toList) :
    c ∈ base64Alphabet true := by
  rw [generateToken, base64url, String.toList_ofList] at h
  exact mem_base64Chars _ h

theorem generateToken_ne_empty (a : Vector UInt8 32) : generateToken a ≠ "" := by
  intro h
  have hlen := congrArg (fun s => s.toList.length) h
  simp [generateToken, base64url, base64Chars_length] at hlen

@[simp] theorem constantTimeEq_utf8 (a b : String) : constantTimeEq (utf8 a) (utf8 b) = decide (a = b) := by
  by_cases h : a = b
  · simp [constantTimeEq, h]
  · have : utf8 a ≠ utf8 b := fun h' => h (utf8_inj h')
    simp [constantTimeEq, h, this]

/-! ### Errors -/

/-- The errors of `/oauth/token` and `/oauth/revoke`. -/
inductive AppError where
  | invalidRequest (description : String)
  | invalidClient
  | invalidGrant (description : String)
  | unauthorizedClient (description : String)
  | unsupportedGrantType
  | invalidScope (description : String)
  | database (err : SqlError)
  | internal (err : String)
deriving DecidableEq, Repr

instance : Into SqlError AppError := ⟨.database⟩

namespace AppError

/-- The `error` code of RFC 6749. -/
def code : AppError → String
  | invalidRequest _ => "invalid_request"
  | invalidClient => "invalid_client"
  | invalidGrant _ => "invalid_grant"
  | unauthorizedClient _ => "unauthorized_client"
  | unsupportedGrantType => "unsupported_grant_type"
  | invalidScope _ => "invalid_scope"
  | database _ | internal _ => "server_error"

def description : AppError → Option String
  | invalidRequest d | invalidGrant d | unauthorizedClient d | invalidScope d => some d
  | invalidClient => some "client authentication failed"
  | unsupportedGrantType => some "supported grant types are authorization_code and refresh_token"
  | database _ | internal _ => none

/-- The HTTP status. -/
def status : AppError → ℕ
  | invalidClient => 401
  | database _ | internal _ => 500
  | _ => 400

end AppError

end SharpOauth
