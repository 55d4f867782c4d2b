import SharpOauth.AccountRuns
import SharpOauth.Sessions
import SharpOauth.KeyRotation
import SharpOauth.UuidText

/-! # The UserInfo endpoint

`GET` and `POST /oauth/userinfo` answer a valid access token with the claims of its user that the
scopes of the token cover.

* Whatever string is presented: claims are disclosed only for an access token that the server issued
  at most 15 minutes before, to a client that was allowed its scopes, by a user who signed in and
  approved every one of them; and the claims are those of that user (`userinfo_discloses`).
* Every access token of a run is answered in one way, which its age and its scope tell
  (`userinfo_answers`).

That the presented token is not a forged one is assumed (`Authentic`); that an ID token is not an access
token, and that the claims in a token are those the server put there, is proved. -/

namespace SharpOauth

open Token Authorization

/-- A value of a JSON object. -/
inductive JsonValue where
  | str (s : String)
  | int (n : ℤ)
  | bool (b : Bool)
deriving DecidableEq, Repr

/-! ### The service -/

namespace UserInfo

/-- Errors in the terms of the bearer token specification. -/
inductive UserInfoError where
  /-- Missing, malformed, expired or forged token, or the user is gone. -/
  | invalidToken
  /-- A valid access token that was not issued with the `openid` scope. -/
  | insufficientScope
  | internal (err : AppError)
deriving DecidableEq

instance : Into SqlError UserInfoError := ⟨fun e => .internal (Into.into e)⟩

/-- The claim set a user shares for a set of scopes. -/
def claimsFor (user : User) (scopes : ScopeSet) : List (String × JsonValue) :=
  let profile := if scopes.contains ScopeSet.profile then
      (user.displayName.map fun name => ("name", JsonValue.str name)).toList ++
        [("updated_at", .int (timestamp user.updatedAt))]
    else []
  let email := if scopes.contains ScopeSet.email then
      [("email", JsonValue.str user.email), ("email_verified", .bool user.emailVerified)]
    else []
  ("sub", .str user.id.toString) :: profile ++ email

/-- The claims for the user behind an access token. -/
def userinfo {jwt : Jsonwebtoken} (ks : SigningKeys jwt) (issuer : String) (d : Draws)
    (accessToken : String) : Service UserInfoError (List (String × JsonValue)) := do
  let claims ← Prog.ofExcept ((Access.verify ks issuer accessToken d.now).mapError fun _ =>
    UserInfoError.invalidToken)
  let scopes := claims.scopes
  if !scopes.contains ScopeSet.openid then .fail .insufficientScope
  else
    let userId ← Prog.okOr (Uuid.parseStr claims.sub) .invalidToken
    let user ← query (.usersFindById userId)
    let user ← Prog.okOr user .invalidToken
    return claimsFor user scopes

/-! ### The endpoint -/

/-- What the endpoint answers. -/
inductive UserInfoResponse where
  | claims (claims : List (String × JsonValue))
  /-- An empty body and a `WWW-Authenticate` header. -/
  | bearerError (status : ℕ) (challenge : String)
  | failed (err : AppError)
deriving DecidableEq

/-- The bearer token of a request. -/
def bearerToken (headers : HeaderMap) : Option String :=
  (((authorizationHeader headers).filter fun value => Client.hasScheme value "Bearer").bind
    (splitOnce ' ')).map fun p => trim p.2

def UserInfoError.intoResponse : UserInfoError → UserInfoResponse
  | .invalidToken => .bearerError 401 "Bearer realm=\x22sharp-oauth\x22, error=\x22invalid_token\x22"
  | .insufficientScope =>
      .bearerError 403
        "Bearer realm=\x22sharp-oauth\x22, error=\x22insufficient_scope\x22, scope=\x22openid\x22"
  | .internal err => .failed err

def UserInfoResponse.ofResult : Except UserInfoError (List (String × JsonValue)) → UserInfoResponse
  | .ok shared => .claims shared
  | .error err => err.intoResponse

/-- `GET` and `POST /oauth/userinfo` -/
def handle {jwt : Jsonwebtoken} (ks : SigningKeys jwt) (issuer : String) (d : Draws)
    (headers : HeaderMap) : Service Empty UserInfoResponse := do
  match bearerToken headers with
  | none => return .bearerError 401 "Bearer realm=\x22sharp-oauth\x22"
  | some token => return .ofResult (← (userinfo ks issuer d token).attempt)

/-- Answer one request. -/
def serveUserinfo {jwt : Jsonwebtoken} (ks : SigningKeys jwt) (issuer : String) (d : Draws)
    (faults : List Bool) (headers : HeaderMap) (db : Db) : UserInfoResponse × Db :=
  let r := (handle ks issuer d headers).serve faults db
  (Prog.value r.1, r.2)

end UserInfo

/-! ### The header -/

/-- Visible ASCII characters without the blank. -/
def Printable (text : String) : Prop := ∀ c ∈ text.toList, 32 < c.toNat ∧ c.toNat < 127

instance (text : String) : Decidable (Printable text) := List.decidableBAll _ _

theorem printable_append {a b : String} : Printable (a ++ b) ↔ Printable a ∧ Printable b := by
  simp only [Printable, String.toList_append, List.forall_mem_append]

theorem headerText_utf8 {text : String} (h : ∀ c ∈ text.toList, 32 ≤ c.toNat ∧ c.toNat < 127) :
    headerText (utf8 text) = some text := by
  have hlt : ∀ c ∈ text.toList, c.toNat < 128 := fun c hc => by have := h c hc; omega
  have hbyte {c : Char} (hc : c ∈ text.toList) : (UInt8.ofNat c.toNat).toNat = c.toNat := by
    have := h c hc
    simp
    omega
  have hvisible : ((text.toList.map fun c => UInt8.ofNat c.toNat).all fun b =>
      (32 ≤ b.toNat && b.toNat < 127) || b == 9) = true := by
    simp only [List.all_map, List.all_eq_true, Function.comp_apply]
    intro c hc
    rw [hbyte hc]
    simp [h c hc]
  unfold headerText
  rw [utf8_of_ascii hlt, if_pos hvisible, List.map_map]
  congr 1
  refine (congrArg String.ofList ((List.map_congr_left fun c hc => ?_).trans (List.map_id _))).trans
    String.ofList_toList
  show Char.ofNat (UInt8.ofNat c.toNat).toNat = c
  rw [hbyte hc, Char.ofNat_toNat]

/-- A bearer token is read back. -/
theorem UserInfo.bearerToken_header {token : String} (h : Printable token) :
    UserInfo.bearerToken ⟨some (utf8 ("Bearer " ++ token)), []⟩ = some token := by
  have hsep : "Bearer " = "Bearer" ++ String.singleton ' ' := by decide +kernel
  have hsplit : splitOnce ' ' ("Bearer " ++ token) = some ("Bearer", token) := by
    rw [hsep]
    exact splitOnce_append (by decide)
  have htext : headerText (utf8 ("Bearer " ++ token)) = some ("Bearer " ++ token) := by
    have hscheme : ("Bearer ".toList.all fun c => 32 ≤ c.toNat ∧ c.toNat < 127) = true := by decide
    refine headerText_utf8 fun c hc => ?_
    rw [String.toList_append] at hc
    rcases List.mem_append.1 hc with hc | hc
    · simpa using List.all_eq_true.1 hscheme c hc
    · have := h c hc
      omega
  have hscheme : Client.hasScheme ("Bearer " ++ token) "Bearer" = true := by
    unfold Client.hasScheme
    rw [hsplit]
    simp
  have htrim : trim token = token := Account.trim_of_no_whitespace fun c hc => by
    have := h c hc
    simp [isWhitespace]
    omega
  unfold UserInfo.bearerToken authorizationHeader
  simp only [Option.bind_some, htext, Option.filter_some, hscheme, if_true, hsplit, Option.map_some, htrim]

/-! ### The tokens of a run -/

/-- What the tokens of a response were signed for, and the authorization at their root. -/
structure Granted {st : AppState} (earlier : List Event) (e : Event) (tokens : TokenResponse)
    (i : Issuance st) (client : OAuthClient) (scope : ScopeSet) : Prop where
  authority : Authority earlier client i
  subset : ∀ x ∈ scope, x ∈ i.validated.scope
  parsed : ∃ raw, ScopeSet.parse raw = .ok scope
  signed : ∃ nonce, Signed st e.draws client i.user.id scope i.session.createdAt nonce tokens

section run

variable {st : AppState} {later earlier es : List Event} {e : Event} {db : Db}

/-- A stored scope that can be read is the scope of the authorization. -/
theorem Issuance.scope_eq {i : Issuance st} {raw : String} {scope : ScopeSet}
    (h : storedScope raw = .ok scope) (hraw : raw = i.row.scope) : scope = i.validated.scope := by
  rw [hraw, i.storedScope_row] at h
  exact (Except.ok.inj h).symm

theorem Issuance.parsed (i : Issuance st) : ∃ raw, ScopeSet.parse raw = .ok i.validated.scope := by
  obtain ⟨-, -, ⟨raw, -, hparse⟩, -⟩ := checkRequest_ok i.valid.checked
  exact ⟨raw, hparse⟩

theorem narrowedScope_cases {granted scope : ScopeSet} {raw : Option String}
    {requested : Option ScopeSet} (hrequested : requestedScope raw = .ok requested)
    (hscope : narrowedScope granted requested = .ok scope) :
    scope = granted ∨ ∃ raw, ScopeSet.parse raw = .ok scope := by
  cases raw with
  | none =>
      cases hrequested
      cases hscope
      exact .inl rfl
  | some raw =>
      cases hparse : ScopeSet.parse raw with
      | error err =>
          simp only [requestedScope, hparse] at hrequested
          cases hrequested
      | ok parsed =>
          simp only [requestedScope, hparse] at hrequested
          cases hrequested
          simp only [narrowedScope] at hscope
          split_ifs at hscope
          cases hscope
          exact .inr ⟨raw, hparse⟩

/-- Behind the tokens of a response there is an authorization. -/
theorem Run.granted (run : Run st (later ++ e :: earlier) db) {headers : HeaderMap}
    {pairs : List (String × String)} (hreq : e.req = .token headers (some pairs))
    {tokens : TokenResponse} (hbody : e.response.body = .tokens tokens) :
    ∃ i : Issuance st, ∃ client scope, Granted earlier e tokens i client scope := by
  obtain ⟨db', run'⟩ := run.upTo
  obtain ⟨hbefore, -, hresponse, -⟩ := run'.cons
  obtain ⟨r, hr, heffect⟩ := serve_token st e.draws headers pairs e.faults e.before
  rw [← hreq] at hr heffect
  rw [hresponse, Event.answer, hr] at hbody
  generalize (serve st e.draws e.faults e.req e.before).2 = db'' at heffect
  cases heffect with
  | failed => cases hbody
  | refused => cases hbody
  | code params client hl hg r db' h =>
      have hredeemed {uri verifier : String} (record : AuthorizationCode)
          (hmem : record ∈ e.before.codes)
          (hb : checkCodeBindings st.toCrates record client uri verifier e.draws.now = .ok ())
          (scope : ScopeSet) (hscope : storedScope record.scope = .ok scope)
          (hsigned : Signed st e.draws client record.userId scope record.authTime record.nonce tokens) :
          ∃ i : Issuance st, ∃ client scope, Granted earlier e tokens i client scope := by
        obtain ⟨i, hi, hrow⟩ := hbefore.code_origin record hmem
        have hclient := (checkCodeBindings_ok_iff.1 hb).1
        rw [hrow] at hclient hscope hsigned
        obtain rfl := i.scope_eq hscope rfl
        exact ⟨i, client, _, hbefore.authority hi hclient, fun x hx => hx, i.parsed, _, hsigned⟩
      cases h with
      | redeemed hp record hu hb scope hscope hoffline response hsigned =>
          cases hbody
          exact hredeemed record hu.mem hb scope hscope (signedTokens_ok hsigned).1
      | redeemedOffline hp record hu hb scope hscope hoffline response hsigned hinsert =>
          cases hbody
          obtain ⟨haccess, hid, hno, hs⟩ := (signedTokens_ok hsigned).1
          exact hredeemed record hu.mem hb scope hscope ⟨haccess, hid, hno, hs⟩
      | _ => cases hbody
  | refresh params client hl hg r db' h =>
      cases h with
      | refreshed hraw record hf hok requested hrequested granted scope hgranted hscope response hsigned
          hinsert =>
          cases hbody
          obtain ⟨i, hi⟩ := hbefore.token_origin record hf.mem
          have hgrant := hi.grantOf
          have hdescends := hi.descends hreq hl.params_ok (GrantType.parse_eq_ok.1 hg) hraw hf.hash
          obtain rfl := i.scope_eq hgranted hgrant.scope
          have hparsed : ∃ raw, ScopeSet.parse raw = .ok scope := by
            rcases narrowedScope_cases hrequested hscope with rfl | hparsed
            · exact i.parsed
            · exact hparsed
          obtain ⟨haccess, hid, hno, hs⟩ := (signedTokens_ok hsigned).1
          rw [hgrant.userId, hgrant.authTime] at haccess hid
          exact ⟨i, client, scope, hbefore.authority hdescends.mem
            (hgrant.clientId.symm.trans (checkUsable_ok hok).1), (narrowedScope_ok hrequested hscope).2,
            hparsed, none, haccess, hid, hno, hs⟩
      | _ => cases hbody

/-- A user is still there at the end of the run. -/
theorem Run.users_kept (run : Run st (later ++ e :: earlier) db) : e.before.users ⊆ db.users := by
  induction later generalizing db with
  | nil =>
      obtain ⟨-, -, -, rfl⟩ := run.cons
      exact e.users_subset st
  | cons x later ih =>
      obtain ⟨hbefore, -, -, rfl⟩ := run.cons
      exact fun u hu => x.users_subset st (ih hbefore hu)

/-- So is the user who authorized the tokens of a response. -/
theorem Granted.user_mem {tokens : TokenResponse} {i : Issuance st} {client : OAuthClient}
    {scope : ScopeSet} (h : Granted earlier e tokens i client scope)
    (run : Run st (later ++ e :: earlier) db) : i.user ∈ db.users := by
  obtain ⟨mid, older, rfl, -⟩ := h.authority.history
  have hassoc : later ++ e :: (mid ++ i.event :: older) = (later ++ e :: mid) ++ i.event :: older := by
    simp
  rw [hassoc] at run
  exact run.users_kept i.signedIn.user_mem

end run

/-! ### What becomes of a token -/

section keys

variable {jwt : Jsonwebtoken} {ks : SigningKeys jwt} {pems : List (String × List UInt8)}
  {wanted : Option String} {st : AppState} {token issuer : String} {now : Instant} {d : Draws}
  {headers : HeaderMap} {db : Db} {es later earlier : List Event} {e : Event}

/-- The key that signs is found under its name. -/
theorem active_found (hload : SigningKeys.fromPems jwt pems wanted = .ok ks)
    (hnodup : (pems.map Prod.fst).Nodup) : ∃ key, ks.keys[ks.active]? = some key ∧
      ks.keys.find? (fun k => k.kid = key.kid) = some key ∧ jwt.Matches key.encoding key.decoding := by
  obtain ⟨key, hkey, hactive⟩ := SigningKeys.active_key hload
  obtain ⟨⟨kid, pem⟩, hmem, hpair⟩ := (SigningKeys.mem_keys hload).1 hkey
  have hloads := SigningKeys.loadKey_ok hpair
  refine ⟨key, hactive, ?_, hloads.matches⟩
  rw [hloads.kid_eq]
  exact SigningKeys.find_key hload hnodup hmem hpair

/-- An access token of the server is valid until it expires. -/
theorem verify_access (hjwt : jwt.Documented) (hload : SigningKeys.fromPems jwt pems wanted = .ok ks)
    (hnodup : (pems.map Prod.fst).Nodup) {claims : Access.AccessTokenClaims}
    (h : Access.issue (st.withKeys ks) claims = .ok token) (claims' : Access.AccessTokenClaims) :
    Access.verify ks issuer token now = .ok claims' ↔ claims' = claims ∧ claims.iss = issuer ∧
      claims.aud = issuer ∧ 0 ≤ claims.exp ∧ timestamp now ≤ claims.exp := by
  obtain ⟨key, hactive, hfind, hmatches⟩ := active_found hload hnodup
  have hencode := mapError_eq_ok.1 h
  rw [withKeys_sign hactive] at hencode
  exact Access.verify_issued hjwt hencode hfind hmatches issuer now claims'

/-- An ID token of the server is no access token. -/
theorem verify_id (hjwt : jwt.Documented) (hload : SigningKeys.fromPems jwt pems wanted = .ok ks)
    (hnodup : (pems.map Prod.fst).Nodup) {claims : IdToken.IdTokenClaims}
    (h : IdToken.issue (st.withKeys ks) claims = .ok token) :
    Access.verify ks issuer token now = .error .wrongType := by
  obtain ⟨key, hactive, hfind, -⟩ := active_found hload hnodup
  have hencode := mapError_eq_ok.1 h
  rw [withKeys_sign hactive] at hencode
  have htyp : asciiLower IdToken.jwtType ≠ asciiLower Access.jwtType := by decide
  unfold Access.verify
  rw [verify_encoded hjwt hencode hfind, if_neg htyp]

/-- A token that passes has been decoded with one of the keys. -/
theorem verify_decoded {claims : Access.AccessTokenClaims}
    (h : Access.verify ks issuer token now = .ok claims) :
    ∃ key ∈ ks.keys, ∃ v payload, jwt.decode now token key.decoding v = .ok payload := by
  unfold Access.verify SigningKeys.verify at h
  cases hheader : jwt.decodeHeader token with
  | error err => simp [hheader] at h
  | ok header =>
      cases hkid : header.kid with
      | none =>
          simp only [hheader, hkid] at h
          split_ifs at h
      | some kid =>
          cases hfind : ks.keys.find? fun key => key.kid = kid with
          | none =>
              simp only [hheader, hkid, hfind] at h
              split_ifs at h
          | some key =>
              refine ⟨key, List.mem_of_find?_eq_some hfind,
                { Access.validation issuer with algorithms := [jwtAlgorithm] }, ?_⟩
              simp only [hheader, hkid, hfind] at h
              split_ifs at h
              cases hdecode : jwt.decode now token key.decoding
                  { Access.validation issuer with algorithms := [jwtAlgorithm] } with
              | error err => simp [hdecode, Except.mapError] at h
              | ok payload => exact ⟨payload, rfl⟩

/-- Nobody forged the token: if it passes under a key of the server, it is from an answer of its
token endpoint. -/
def Authentic (ks : SigningKeys jwt) (es : List Event) (token : String) : Prop :=
  ∀ key ∈ ks.keys, ∀ now v payload, jwt.decode now token key.decoding v = .ok payload →
    ∃ e ∈ es, ∃ headers pairs tokens, e.req = .token headers (some pairs) ∧
      e.response.body = .tokens tokens ∧ (tokens.accessToken = token ∨ tokens.idToken = some token)

/-! ### What the endpoint discloses -/

namespace UserInfo

open Prog

/-- What the service answers, and when. -/
theorem userinfo_wp {flaky : Prop}
    {Q : Except UserInfoError (List (String × JsonValue)) → Conn Sharp → Prop}
    (hflaky : ∀ err, flaky → Q (.error (.internal err)) ⟨db, none⟩)
    (hrejected : ∀ err, Access.verify ks issuer token d.now = .error err →
      Q (.error .invalidToken) ⟨db, none⟩)
    (hscope : ∀ access, Access.verify ks issuer token d.now = .ok access →
      ScopeSet.openid ∉ access.scopes → Q (.error .insufficientScope) ⟨db, none⟩)
    (hgone : ∀ access, Access.verify ks issuer token d.now = .ok access →
      (∀ user ∈ db.users, Uuid.parseStr access.sub ≠ some user.id) → Q (.error .invalidToken) ⟨db, none⟩)
    (hclaims : ∀ access user, Access.verify ks issuer token d.now = .ok access →
      ScopeSet.openid ∈ access.scopes → user ∈ db.users → Uuid.parseStr access.sub = some user.id →
        Q (.ok (claimsFor user access.scopes)) ⟨db, none⟩) :
    (userinfo ks issuer d token).wp flaky Q ⟨db, none⟩ := by
  unfold userinfo
  refine (wp_ofExcept _ _).2 ⟨fun access haccess => ?_, fun err herr => ?_⟩
  · have hverify := mapError_eq_ok.1 haccess
    by_cases hopenid : ScopeSet.openid ∈ access.scopes
    · rw [if_neg (by simpa [ScopeSet.contains] using hopenid)]
      refine (wp_okOr _ _ _).2 ⟨fun userId hsub => ?_, fun hsub => ?_⟩
      · refine (wp_query_auto _ _).2 ⟨hflaky _, fun found hfound => ?_, fun err h => by cases h⟩
        rw [db.after_of_reads rfl]
        have hfound : db.users.find? (fun u => u.id = userId) = found := Except.ok.inj hfound
        cases found with
        | none =>
            refine hgone access hverify fun user huser hid => ?_
            have hne := List.find?_eq_none.1 hfound user huser
            rw [hsub] at hid
            exact hne (by simpa using (Option.some.inj hid).symm)
        | some user =>
            have hid : user.id = userId := by simpa using List.find?_some hfound
            exact hclaims access user hverify hopenid (List.mem_of_find?_eq_some hfound)
              (hsub.trans (congrArg some hid.symm))
      · exact hgone access hverify fun user _ hid => by simp [hsub] at hid
    · rw [if_pos (by simpa [ScopeSet.contains] using hopenid)]
      exact hscope access hverify hopenid
  · cases hverify : Access.verify ks issuer token d.now with
    | ok access =>
        rw [hverify] at herr
        cases herr
    | error err' =>
        rw [hverify] at herr
        cases herr
        exact hrejected err' hverify

/-- The endpoint answers a bearer token as the service does. -/
theorem handle_wp {flaky : Prop} {Q : Except Empty UserInfoResponse → Conn Sharp → Prop}
    (hnone : bearerToken headers = none →
      Q (.ok (.bearerError 401 "Bearer realm=\x22sharp-oauth\x22")) ⟨db, none⟩)
    (hsome : ∀ token, bearerToken headers = some token → (userinfo ks issuer d token).wp flaky
      (fun r c => Q (.ok (.ofResult r)) c) ⟨db, none⟩) :
    (handle ks issuer d headers).wp flaky Q ⟨db, none⟩ := by
  unfold handle
  cases hbearer : bearerToken headers with
  | none => exact hnone hbearer
  | some token => exact (wp_attempt_bind _ _ _).2 (hsome token hbearer)

/-- A user has been identified by a token that passes. -/
structure Identifies (ks : SigningKeys jwt) (issuer : String) (d : Draws) (db : Db) (token : String)
    (access : Access.AccessTokenClaims) (user : User) : Prop where
  verified : Access.verify ks issuer token d.now = .ok access
  openid : ScopeSet.openid ∈ access.scopes
  mem : user ∈ db.users
  sub : Uuid.parseStr access.sub = some user.id

theorem serveUserinfo_claims {faults : List Bool} {claims : List (String × JsonValue)}
    (h : (serveUserinfo ks issuer d faults headers db).1 = .claims claims) :
    ∃ token access user, bearerToken headers = some token ∧
      Identifies ks issuer d db token access user ∧ claims = claimsFor user access.scopes := by
  let R (r : Except Empty UserInfoResponse) (_ : Db) : Prop := Prog.value r = .claims claims →
    ∃ token access user, bearerToken headers = some token ∧
      Identifies ks issuer d db token access user ∧ claims = claimsFor user access.scopes
  refine wp_serve (S := Sharp) (R := R) (handle ks issuer d headers) faults db ?_ h
  refine handle_wp (fun _ h => by cases h) fun token htoken => ?_
  refine userinfo_wp (fun _ _ h => by cases h) (fun _ _ h => by cases h) (fun _ _ _ h => by cases h)
    (fun _ _ _ h => by cases h) fun access user hverify hopenid huser hsub h => ?_
  cases h
  exact ⟨token, access, user, htoken, ⟨hverify, hopenid, huser, hsub⟩, rfl⟩

/-- The scopes in an access token are those it was issued for. -/
theorem scopes_new {scope : ScopeSet} (hparsed : ∃ raw, ScopeSet.parse raw = .ok scope) (userId : Uuid)
    (clientId : String) (authTime now : Instant) (jti : Uuid) :
    (Access.AccessTokenClaims.new issuer userId clientId scope authTime now jti).scopes = scope := by
  obtain ⟨raw, hraw⟩ := hparsed
  unfold Access.AccessTokenClaims.scopes Access.AccessTokenClaims.new
  rw [ScopeSet.parse_toString hraw]

/-- **What the endpoint discloses.**  Claims are disclosed only for an access token that the server
issued in the last 15 minutes, and they are those of the user who authorized it, for scopes that this
user approved. -/
theorem userinfo_discloses (hjwt : jwt.Documented)
    (hload : SigningKeys.fromPems jwt pems wanted = .ok ks) (hnodup : (pems.map Prod.fst).Nodup)
    (run : Run (st.withKeys ks) es db)
    (hauthentic : ∀ token, bearerToken headers = some token → Authentic ks es token) {faults : List Bool}
    {claims : List (String × JsonValue)}
    (h : (serveUserinfo ks st.issuer d faults headers db).1 = .claims claims) :
    ∃ later e earlier tokens, ∃ i : Issuance (st.withKeys ks), ∃ client scope,
      es = later ++ e :: earlier ∧ e.response.body = .tokens tokens ∧
        bearerToken headers = some tokens.accessToken ∧
        timestamp d.now ≤ timestamp (e.draws.now + Access.accessTokenTtl) ∧
        Granted earlier e tokens i client scope ∧ ScopeSet.openid ∈ scope ∧ i.user ∈ db.users ∧
        claims = claimsFor i.user scope := by
  obtain ⟨token, access, user, hbearer, ⟨hverify, hopenid, huser, hsub⟩, rfl⟩ := serveUserinfo_claims h
  obtain ⟨key, hkey, v, payload, hdecode⟩ := verify_decoded hverify
  obtain ⟨e, he, header, pairs, tokens, hreq, hbody, htoken⟩ :=
    hauthentic token hbearer key hkey _ _ _ hdecode
  obtain ⟨later, earlier, rfl⟩ := List.append_of_mem he
  obtain ⟨i, client, scope, hgranted⟩ := run.granted hreq hbody
  obtain ⟨nonce, hsigned⟩ := hgranted.signed
  rcases htoken with rfl | hid
  · obtain ⟨rfl, -, -, -, hexp⟩ := (verify_access hjwt hload hnodup hsigned.accessToken access).1 hverify
    rw [scopes_new hgranted.parsed] at hopenid ⊢
    have hmem := hgranted.user_mem run
    have hid : user.id = i.user.id := Option.some.inj (hsub.symm.trans (Uuid.parseStr_toString _))
    obtain rfl : user = i.user := run.unique.eq huser hmem (by simp [clash, hid])
    exact ⟨later, e, earlier, tokens, i, client, scope, rfl, hbody, hbearer, hexp, hgranted, hopenid,
      hmem, rfl⟩
  · -- An ID token does not pass.
    by_cases hmem : ScopeSet.openid ∈ scope
    · obtain ⟨idToken, hidToken, hissue⟩ := hsigned.idToken hmem
      obtain rfl := Option.some.inj (hid.symm.trans hidToken)
      rw [verify_id hjwt hload hnodup hissue] at hverify
      cases hverify
    · rw [hsigned.noIdToken hmem] at hid
      cases hid

/-- The answer to a token that was signed for a user of the server. -/
theorem serveUserinfo_granted (hjwt : jwt.Documented)
    (hload : SigningKeys.fromPems jwt pems wanted = .ok ks) (hnodup : (pems.map Prod.fst).Nodup)
    (run : Run (st.withKeys ks) (later ++ e :: earlier) db) {tokens : TokenResponse}
    (hbearer : bearerToken headers = some tokens.accessToken) {i : Issuance (st.withKeys ks)}
    {client : OAuthClient} {scope : ScopeSet} (hgranted : Granted earlier e tokens i client scope) :
    serveUserinfo ks st.issuer d [] headers db =
      (if 0 ≤ timestamp (e.draws.now + Access.accessTokenTtl) ∧
          timestamp d.now ≤ timestamp (e.draws.now + Access.accessTokenTtl) then
        if ScopeSet.openid ∈ scope then .claims (claimsFor i.user scope)
        else UserInfoError.insufficientScope.intoResponse
      else UserInfoError.invalidToken.intoResponse, db) := by
  obtain ⟨nonce, hsigned⟩ := hgranted.signed
  have hmem := hgranted.user_mem run
  have hscopes (jti : Uuid) : (Access.AccessTokenClaims.new st.issuer i.user.id client.clientId scope
      i.session.createdAt e.draws.now jti).scopes = scope :=
    scopes_new hgranted.parsed i.user.id client.clientId i.session.createdAt e.draws.now jti
  have hverify (access : Access.AccessTokenClaims) :
      Access.verify ks st.issuer tokens.accessToken d.now = .ok access ↔
        access = .new st.issuer i.user.id client.clientId scope i.session.createdAt e.draws.now
          (e.draws.uuid 0) ∧ 0 ≤ timestamp (e.draws.now + Access.accessTokenTtl) ∧
          timestamp d.now ≤ timestamp (e.draws.now + Access.accessTokenTtl) :=
    (verify_access hjwt hload hnodup hsigned.accessToken access).trans <| by
      constructor
      · rintro ⟨heq, -, -, hvalid⟩
        exact ⟨heq, hvalid⟩
      · rintro ⟨heq, hvalid⟩
        exact ⟨heq, rfl, rfl, hvalid⟩
  let R (r : Except Empty UserInfoResponse) (db' : Db) : Prop := (Prog.value r, db') =
    (if 0 ≤ timestamp (e.draws.now + Access.accessTokenTtl) ∧
        timestamp d.now ≤ timestamp (e.draws.now + Access.accessTokenTtl) then
      if ScopeSet.openid ∈ scope then .claims (claimsFor i.user scope)
      else UserInfoError.insufficientScope.intoResponse
    else UserInfoError.invalidToken.intoResponse, db)
  refine wp_serve (S := Sharp) (R := R) (handle ks st.issuer d headers) [] db
    (handle_wp (fun hnone => ?_) fun token htoken => ?_)
  · rw [hbearer] at hnone
    cases hnone
  obtain rfl := Option.some.inj (hbearer.symm.trans htoken)
  refine userinfo_wp (fun _ h => absurd h List.not_mem_nil) (fun err herr => ?_)
    (fun access haccess hno => ?_) (fun access haccess hgone => ?_)
    fun access user haccess hopenid huser hsub => ?_
  · have hexpired : ¬(0 ≤ timestamp (e.draws.now + Access.accessTokenTtl) ∧
        timestamp d.now ≤ timestamp (e.draws.now + Access.accessTokenTtl)) := fun hvalid => by
      have hok := (hverify _).2 ⟨rfl, hvalid⟩
      rw [herr] at hok
      cases hok
    show (_, db) = _
    rw [if_neg hexpired]
    rfl
  · obtain ⟨rfl, hvalid⟩ := (hverify access).1 haccess
    rw [hscopes] at hno
    show (_, db) = _
    rw [if_pos hvalid, if_neg hno]
    rfl
  · obtain ⟨rfl, -⟩ := (hverify access).1 haccess
    exact absurd (Uuid.parseStr_toString i.user.id) (hgone i.user hmem)
  · obtain ⟨rfl, hvalid⟩ := (hverify access).1 haccess
    have hid : user.id = i.user.id := Option.some.inj (hsub.symm.trans (Uuid.parseStr_toString _))
    obtain rfl : user = i.user := run.unique.eq huser hmem (by simp [clash, hid])
    rw [hscopes] at hopenid ⊢
    show (_, db) = _
    rw [if_pos hvalid, if_pos hopenid]
    rfl

/-- **What the endpoint answers.**  An access token of the run that has not expired gets the claims of
its user, or is told that it lacks the `openid` scope. -/
theorem userinfo_answers (hjwt : jwt.Documented)
    (hload : SigningKeys.fromPems jwt pems wanted = .ok ks) (hnodup : (pems.map Prod.fst).Nodup)
    (run : Run (st.withKeys ks) (later ++ e :: earlier) db) {header : HeaderMap}
    {pairs : List (String × String)} (hreq : e.req = .token header (some pairs)) {tokens : TokenResponse}
    (hbody : e.response.body = .tokens tokens) (hbearer : bearerToken headers = some tokens.accessToken) :
    ∃ i : Issuance (st.withKeys ks), ∃ client scope, Granted earlier e tokens i client scope ∧
      serveUserinfo ks st.issuer d [] headers db =
        (if 0 ≤ timestamp (e.draws.now + Access.accessTokenTtl) ∧
            timestamp d.now ≤ timestamp (e.draws.now + Access.accessTokenTtl) then
          if ScopeSet.openid ∈ scope then .claims (claimsFor i.user scope)
          else UserInfoError.insufficientScope.intoResponse
        else UserInfoError.invalidToken.intoResponse, db) := by
  obtain ⟨i, client, scope, hgranted⟩ := run.granted hreq hbody
  exact ⟨i, client, scope, hgranted, serveUserinfo_granted hjwt hload hnodup run hbearer hgranted⟩

end UserInfo

end keys

/-! ### The tokens of one exchange -/

section withKeys

variable {jwt : Jsonwebtoken} {ks : SigningKeys jwt} {st : AppState}

/-- A request of a browser or of the command line. -/
def Request.Unsigned : Request → Prop
  | .token _ _ | .revoke _ _ => False
  | _ => True

/-- Nothing is signed for it. -/
theorem serve_withKeys (d : Draws) (faults : List Bool) (req : Request) (db : Db) (h : req.Unsigned) :
    serve (st.withKeys ks) d faults req db = serve st d faults req db := by
  cases req with
  | token headers form => exact h.elim
  | revoke headers form => exact h.elim
  | _ => rfl

/-- A run of such requests is one of the server with any keys. -/
theorem Run.withKeys {es : List Event} {db : Db} (run : Run st es db) (hes : ∀ e ∈ es, e.req.Unsigned) :
    Run (st.withKeys ks) es db := by
  induction run with
  | init => exact .init
  | @step es db run req d faults fresh ih =>
      have hserve : serve (st.withKeys ks) d faults req db = serve st d faults req db :=
        serve_withKeys d faults req db (hes _ List.mem_cons_self)
      have hstep := (ih fun e he => hes e (List.mem_cons_of_mem _ he)).step req d faults fresh
      rwa [hserve] at hstep

end withKeys

namespace Sample

section signer

variable (pem : List UInt8) (key : RsaKeyParameters) (signed : List (Header × Payload × String))

/-- The crate, on one key file and some tokens. -/
def signer : Jsonwebtoken where
  EncodingKey := RsaKeyParameters
  DecodingKey := RsaKeyParameters
  fromRsaPem pem' := if pem' = pem then some key else none
  jwkFromEncodingKey key alg := some ⟨none, some alg, none, key⟩
  decodingKeyFromJwk jwk := some jwk.algorithm
  encode header payload key' :=
    match signed.find? fun t => t.1 = header ∧ t.2.1 = payload ∧ key' = key with
    | some t => .ok t.2.2
    | none => .error "unsupported"
  decodeHeader token :=
    match signed.find? fun t => t.2.2 = token with
    | some t => .ok t.1
    | none => .error "unsupported"
  decode now token key' v :=
    match signed.find? fun t => t.2.2 = token ∧ key' = key ∧ t.1.alg ∈ v.algorithms ∧
        v.accepts now t.2.1 with
    | some t => .ok t.2.1
    | none => .error "invalid"

variable {pem key signed}

theorem signer_encode {header : Header} {payload : Payload} {key' : RsaKeyParameters} {token : String}
    (h : (signer pem key signed).encode header payload key' = .ok token) :
    (header, payload, token) ∈ signed ∧ key' = key := by
  simp only [signer] at h
  cases hfind : signed.find? fun t => t.1 = header ∧ t.2.1 = payload ∧ key' = key with
  | none =>
      rw [hfind] at h
      cases h
  | some t =>
      have hmem := List.mem_of_find?_eq_some hfind
      have hp := List.find?_some hfind
      simp only [decide_eq_true_eq] at hp
      simp only [hfind, Except.ok.injEq] at h
      obtain ⟨rfl, rfl, hkey⟩ := hp
      subst h
      exact ⟨hmem, hkey⟩

theorem signer_documented (htokens : (signed.map fun t => t.2.2).Nodup) :
    (signer pem key signed).Documented := by
  have hsame {t : Header × Payload × String} {header : Header} {payload : Payload} {token : String}
      (h : (header, payload, token) ∈ signed) (ht : t ∈ signed) (htoken : t.2.2 = token) :
      t = (header, payload, token) := List.inj_on_of_nodup_map htokens ht h htoken
  refine ⟨?_, ?_, ?_⟩
  · intro header payload encoding token h
    obtain ⟨hmem, -⟩ := signer_encode h
    have hfind : signed.find? (fun t => t.2.2 = token) = some (header, payload, token) :=
      find_only hmem (by simp) fun t ht htoken => hsame hmem ht (by simpa using htoken)
    simp only [signer, hfind]
  · intro header encoding token decoding now payload v h _ hmatches _ halg haccepts
    obtain ⟨hmem, hencoding⟩ := signer_encode h
    obtain ⟨alg, jwk, jwk', hjwk, hkey, hdecoding⟩ := hmatches
    cases hjwk
    cases hdecoding
    have hdecoding : jwk'.algorithm = key := hkey.trans hencoding
    have hfind : signed.find? (fun t => t.2.2 = token ∧ jwk'.algorithm = key ∧
        t.1.alg ∈ v.algorithms ∧ v.accepts now t.2.1) = some (header, payload, token) := by
      refine find_only hmem (by simp [hdecoding, halg, haccepts]) fun t ht hp => hsame hmem ht ?_
      rw [decide_eq_true_eq] at hp
      exact hp.1
    simp only [signer, hfind]
  · intro header encoding token (decoding : RsaKeyParameters) now payload v h _ _ hinvalid
    obtain ⟨hmem, -⟩ := signer_encode h
    have hfind : signed.find? (fun t => t.2.2 = token ∧ decoding = key ∧
        t.1.alg ∈ v.algorithms ∧ v.accepts now t.2.1) = none := by
      refine List.find?_eq_none.2 fun t ht hp => ?_
      rw [decide_eq_true_eq] at hp
      obtain ⟨htoken, -, halg, haccepts⟩ := hp
      rw [hsame hmem ht htoken] at halg haccepts
      rcases hinvalid with hnot | hnot
      · exact hnot halg
      · rw [hnot] at haccepts
        cases haccepts
    refine ⟨"invalid", ?_⟩
    simp only [signer, hfind]

theorem loadKey_signer {kid : String} (hkid : SigningKeys.validKid kid = true) :
    SigningKeys.loadKey (signer pem key signed) (kid, pem) =
      .ok ⟨kid, key, key, ⟨some .signature, some jwtAlgorithm, some kid, key⟩⟩ := by
  have hpem : (signer pem key signed).fromRsaPem pem = some key := if_pos rfl
  unfold SigningKeys.loadKey
  simp only [hkid, hpem]
  rfl

/-- The key set of one file. -/
def oneKey (kid : String) : SigningKeys (signer pem key signed) :=
  ⟨[⟨kid, key, key, ⟨some .signature, some jwtAlgorithm, some kid, key⟩⟩], 0⟩

theorem fromPems_one {kid : String} (hkid : SigningKeys.validKid kid = true) :
    SigningKeys.fromPems (signer pem key signed) [(kid, pem)] none = .ok (oneKey kid) := by
  have hsort : SigningKeys.sortPems [(kid, pem)] = [(kid, pem)] :=
    List.mergeSort_of_pairwise (List.pairwise_singleton _ _)
  unfold SigningKeys.fromPems
  rw [hsort, List.mapM_cons, loadKey_signer hkid]
  rfl

end signer

/-- The claims of the tokens of the exchange. -/
def exchangeClaims : Access.AccessTokenClaims where
  iss := "https://id.example"
  sub := "00000000-0000-0000-0000-000000000003"
  aud := "https://id.example"
  exp := 905
  iat := 5
  jti := "00000000-0000-0000-0000-00000000000f"
  clientId := "sharp_client_BgYGBgYGBgYGBgYGBgYGBgYG"
  scope := "offline_access openid"
  authTime := 1

def exchangeIdClaims : IdToken.IdTokenClaims where
  iss := "https://id.example"
  sub := "00000000-0000-0000-0000-000000000003"
  aud := "sharp_client_BgYGBgYGBgYGBgYGBgYGBgYG"
  exp := 905
  iat := 5
  authTime := 1
  nonce := none

def exchangeAccessToken : String :=
    "eyJ0eXAiOiJhdCtqd3QiLCJhbGciOiJSUzI1NiIsImtpZCI6IjIwMjYwMTAxIn0.eyJpc3MiOiJodHRwczov" ++
    "L2lkLmV4YW1wbGUiLCJzdWIiOiIwMDAwMDAwMC0wMDAwLTAwMDAtMDAwMC0wMDAwMDAwMDAwMDMiLCJhdWQi" ++
    "OiJodHRwczovL2lkLmV4YW1wbGUiLCJleHAiOjkwNSwiaWF0Ijo1LCJqdGkiOiIwMDAwMDAwMC0wMDAwLTAw" ++
    "MDAtMDAwMC0wMDAwMDAwMDAwMGYiLCJjbGllbnRfaWQiOiJzaGFycF9jbGllbnRfQmdZR0JnWUdCZ1lHQmdZ" ++
    "R0JnWUdCZ1lHIiwic2NvcGUiOiJvZmZsaW5lX2FjY2VzcyBvcGVuaWQiLCJhdXRoX3RpbWUiOjF9.ORvQ7vh" ++
    "0cbSBO4sUc95y_Z8I2l0lwUdQCDiUZsIyeF5d45UK9kvlD128AgJqXkl2oPW1rNRvtYcqGycanDAjK0YikBx" ++
    "i6DNAJk2w0Ddx3xEzbD9P0lOYbsmmVpccASWGyrt_ypfJbssS3RAEXbjIirVwVIMugdKT2kbg6g0Orz6q4Ej" ++
    "RaHmiMpryj8nSWR3FFOUWW9FqwGSJJp8Vv6lqlOF5vFu_KpcJ3JM0CaU-YfLhcyrDijkZyYZnOwZItP2dWSE" ++
    "FkwJAjZakKaht0OgF7gMel2vUB0K4tlnrYs42h79bxeuKADqMV-i4GphRZ8LB3dL-gJvhsSCOczuscNYZdA"

def exchangeIdToken : String :=
    "eyJ0eXAiOiJKV1QiLCJhbGciOiJSUzI1NiIsImtpZCI6IjIwMjYwMTAxIn0.eyJpc3MiOiJodHRwczovL2lk" ++
    "LmV4YW1wbGUiLCJzdWIiOiIwMDAwMDAwMC0wMDAwLTAwMDAtMDAwMC0wMDAwMDAwMDAwMDMiLCJhdWQiOiJz" ++
    "aGFycF9jbGllbnRfQmdZR0JnWUdCZ1lHQmdZR0JnWUdCZ1lHIiwiZXhwIjo5MDUsImlhdCI6NSwiYXV0aF90" ++
    "aW1lIjoxfQ.o9020ZFjJrWlBhW1_7qYVJANeHmGWZCjRYspZpil6r6dfzJktmIfqPf3-jtwKpIuJIwvRMuSp" ++
    "Z_1kxqutZXbZNWHjKLxNpQXfreAoz3T_dBFeJtu7AyG4vvntI-F96hMjxlHaDLKZ4nRWnSA9ef5C-ZiYzOgh" ++
    "M66baugVq04fZqldbi9-lukspr2cBZJkkiIuLnrw-G1cDwvVaJ5hyEX_QfLit7_1_Ll21_n1YeS6tq6D7Spd" ++
    "ucAwIxcqmAuc0euLZfg6B-owuNEeU5Iebu9oX6ZVb5YoxGCtBqnumHG-VVJQc0ukzleZ5obDgO9DctOf_Mxn" ++
    "OfeOxzuVEw2TZMw3w"

/-- Two tokens of the exchange, and one that another server with the same key signs. -/
def exchangeSigned : List (Header × Payload × String) :=
  [(⟨jwtAlgorithm, some Access.jwtType, some "20260101"⟩, exchangeClaims.payload, exchangeAccessToken),
    (⟨jwtAlgorithm, some IdToken.jwtType, some "20260101"⟩, exchangeIdClaims.payload, exchangeIdToken),
    (accessHeader, accessClaims.payload, accessToken)]

/-- The crate and the keys of the server. -/
abbrev exchangeJwt : Jsonwebtoken := signer (utf8 signingPem) signingParameters exchangeSigned

def exchangeKeys : SigningKeys exchangeJwt := oneKey "20260101"

def keyedState : AppState := state.withKeys exchangeKeys

theorem exchangeJwt_documented : exchangeJwt.Documented := signer_documented (by decide +kernel)

theorem fromPems_exchange :
    SigningKeys.fromPems exchangeJwt [("20260101", utf8 signingPem)] none = .ok exchangeKeys :=
  fromPems_one (by decide)

/-- The exchange of the code. -/
def keyedExchange : Event :=
  ⟨exchange clientA.clientId, draws 5, [], issued,
    (serve keyedState (draws 5) [] (exchange clientA.clientId) issued).1⟩

def keyedTokens : TokenResponse :=
  { tokens with accessToken := exchangeAccessToken, idToken := some exchangeIdToken }

theorem keyedExchange_tokens : keyedExchange.response.body = .tokens keyedTokens :=
  tokens?_eq_some (by decide +kernel)

theorem keyedExchange_after :
    (serve keyedState (draws 5) [] (exchange clientA.clientId) issued).2 = exchanged :=
  rows_inj (by decide +kernel)

theorem run_keyed : Run keyedState (keyedExchange :: approvals) exchanged := by
  have hserved : Served 5 approvals issued := served_registered.step (by decide) serve_consent
  have hbefore : Run keyedState approvals issued := hserved.run.withKeys fun e he => by
    simp only [approvals, registrations, List.mem_cons, List.not_mem_nil, or_false] at he
    rcases he with rfl | rfl | rfl | rfl <;> exact True.intro
  have hrun := hbefore.step (exchange clientA.clientId) (draws 5) [] (hserved.fresh (by decide))
  rwa [keyedExchange_after] at hrun

/-- A request with the access token. -/
def bearer : HeaderMap := ⟨some (utf8 ("Bearer " ++ exchangeAccessToken)), []⟩

theorem bearerToken_bearer : UserInfo.bearerToken bearer = some keyedTokens.accessToken := by
  have hprintable : Printable exchangeAccessToken := by
    unfold exchangeAccessToken
    repeat rw [printable_append]
    decide +kernel
  have htoken : keyedTokens.accessToken = exchangeAccessToken := rfl
  rw [htoken]
  exact UserInfo.bearerToken_header hprintable

/-- The access token is from the exchange. -/
theorem authentic_bearer (token : String) (h : UserInfo.bearerToken bearer = some token) :
    Authentic exchangeKeys (keyedExchange :: approvals) token := fun _ _ _ _ _ _ =>
  ⟨keyedExchange, List.mem_cons_self, noHeaders, exchangeForm clientA.clientId, keyedTokens, rfl,
    keyedExchange_tokens, .inl (Option.some.inj (bearerToken_bearer.symm.trans h))⟩

theorem serve_bearer : ∃ claims, (UserInfo.serveUserinfo exchangeKeys state.issuer (draws 6) [] bearer
    exchanged).1 = .claims claims := by
  have hrun : Run keyedState ([] ++ keyedExchange :: approvals) exchanged := run_keyed
  obtain ⟨i, client, scope, hgranted⟩ := hrun.granted rfl keyedExchange_tokens
  have hserve := UserInfo.serveUserinfo_granted (d := draws 6) exchangeJwt_documented fromPems_exchange
    (by simp) hrun bearerToken_bearer hgranted
  obtain ⟨nonce, hsigned⟩ := hgranted.signed
  have hopenid : ScopeSet.openid ∈ scope := by
    by_contra hno
    have hnone := hsigned.noIdToken hno
    cases hnone
  have hvalid : 0 ≤ timestamp (keyedExchange.draws.now + Access.accessTokenTtl) ∧
      timestamp (draws 6).now ≤ timestamp (keyedExchange.draws.now + Access.accessTokenTtl) := by
    constructor <;> decide
  rw [if_pos hvalid, if_pos hopenid] at hserve
  exact ⟨_, congrArg Prod.fst hserve⟩

end Sample

namespace UserInfo

/-- The claims of the user who approved the exchange. -/
theorem userinfo_discloses_bearer : ∃ claims later e earlier tokens, ∃ i : Issuance Sample.keyedState,
    ∃ client scope, Sample.keyedExchange :: Sample.approvals = later ++ e :: earlier ∧
      e.response.body = .tokens tokens ∧ bearerToken Sample.bearer = some tokens.accessToken ∧
        timestamp (Sample.draws 6).now ≤ timestamp (e.draws.now + Access.accessTokenTtl) ∧
        Granted earlier e tokens i client scope ∧ ScopeSet.openid ∈ scope ∧
        i.user ∈ Sample.exchanged.users ∧ claims = claimsFor i.user scope := by
  obtain ⟨claims, hserve⟩ := Sample.serve_bearer
  exact ⟨claims, userinfo_discloses Sample.exchangeJwt_documented Sample.fromPems_exchange (by simp)
    Sample.run_keyed Sample.authentic_bearer hserve⟩

theorem userinfo_answers_bearer : ∃ i : Issuance Sample.keyedState, ∃ client scope,
    Granted Sample.approvals Sample.keyedExchange Sample.keyedTokens i client scope ∧
      serveUserinfo Sample.exchangeKeys Sample.state.issuer (Sample.draws 6) [] Sample.bearer
        Sample.exchanged =
          (if 0 ≤ timestamp (Sample.keyedExchange.draws.now + Access.accessTokenTtl) ∧
              timestamp (Sample.draws 6).now ≤
                timestamp (Sample.keyedExchange.draws.now + Access.accessTokenTtl) then
            if ScopeSet.openid ∈ scope then .claims (claimsFor i.user scope)
            else UserInfoError.insufficientScope.intoResponse
          else UserInfoError.invalidToken.intoResponse, Sample.exchanged) :=
  have hrun : Run Sample.keyedState ([] ++ Sample.keyedExchange :: Sample.approvals) Sample.exchanged :=
    Sample.run_keyed
  userinfo_answers Sample.exchangeJwt_documented Sample.fromPems_exchange (by simp) hrun rfl
    Sample.keyedExchange_tokens Sample.bearerToken_bearer

end UserInfo

end SharpOauth
