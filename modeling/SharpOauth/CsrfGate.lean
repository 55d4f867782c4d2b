import SharpOauth.RegistryEffects
import SharpOauth.Cookies

/-! # The CSRF gate

The eight forms of the site, from the body of the request on: each is read by one of three
decoders, which treat repeated and missing fields differently, and each compares the token it
read with the `sharp_csrf` cookie.

Whatever the body is, nothing is written and the session cookie stays as it is unless the two
are the same non-empty text (`csrf_gate`). -/

namespace SharpOauth

/-! ### The decoders -/

/-- The fields of a form that is read into a struct: unknown names are skipped, and a known name
may not be repeated. -/
def structFields (known : List String) (pairs : List (String × String)) :
    Option (List (String × String)) :=
  let fields := pairs.filter fun p => p.1 ∈ known
  if (fields.map Prod.fst).Nodup then some fields else none

def SignInForm.fromPairs (pairs : List (String × String)) : Option SignInForm := do
  let fields ← structFields ["email", "password", "return_to", "csrf_token"] pairs
  return {
    email := (fields.lookup "email").getD ""
    password := (fields.lookup "password").getD ""
    returnTo := fields.lookup "return_to"
    csrfToken := fields.lookup "csrf_token" }

def SignUpForm.fromPairs (pairs : List (String × String)) : Option SignUpForm := do
  let fields ← structFields ["email", "password", "display_name", "return_to", "csrf_token"] pairs
  return {
    email := (fields.lookup "email").getD ""
    password := (fields.lookup "password").getD ""
    displayName := fields.lookup "display_name"
    returnTo := fields.lookup "return_to"
    csrfToken := fields.lookup "csrf_token" }

/-- The logout form, which is a token or nothing. -/
def CsrfForm.fromPairs (pairs : List (String × String)) : Option (Option String) :=
  (structFields ["csrf_token"] pairs).map fun fields => fields.lookup "csrf_token"

/-! ### The forms -/

/-- The routes that take a form. -/
inductive FormRoute where
  | signIn
  | signUp
  | logout
  | consent
  | appCreate
  | appUpdate (clientId : String)
  | appRotateSecret (clientId : String)
  | appDelete (clientId : String)

namespace FormRoute

/-- The request that the handler gets, unless its body is rejected. -/
def request (headers : HeaderMap) (pairs : List (String × String)) : FormRoute → Option Request
  | .signIn => (SignInForm.fromPairs pairs).map (.signIn headers)
  | .signUp => (SignUpForm.fromPairs pairs).map (.signUp headers)
  | .logout => (CsrfForm.fromPairs pairs).map (.logout headers)
  | .consent => some (.consent headers pairs)
  | .appCreate => some (.appCreate headers pairs)
  | .appUpdate clientId => some (.appUpdate headers clientId pairs)
  | .appRotateSecret clientId => some (.appRotateSecret headers clientId pairs)
  | .appDelete clientId => some (.appDelete headers clientId pairs)

/-- The `csrf_token` field that the handler reads. -/
def csrfToken (pairs : List (String × String)) : FormRoute → Option String
  | .signIn => (SignInForm.fromPairs pairs).bind SignInForm.csrfToken
  | .signUp => (SignUpForm.fromPairs pairs).bind SignUpForm.csrfToken
  | .logout => (CsrfForm.fromPairs pairs).join
  | .consent => (Params.fromPairs pairs).toOption.bind fun params => params.get Csrf.csrfField
  | .appCreate | .appUpdate _ | .appRotateSecret _ | .appDelete _ => (AppForm.fromPairs pairs).csrfToken

/-- The response to a body that could not be read: it is not a form, or a field is repeated. -/
def rejection (body : Option (List (String × String))) : Response :=
  { status := if body.isNone then 415 else 422, body := .empty }

/-- What answers when the body is rejected; the session is looked up before the body is read. -/
def reject (st : AppState) (d : Draws) (headers : HeaderMap)
    (body : Option (List (String × String))) : FormRoute → Service Empty Response
  | .signIn | .signUp | .logout => return rejection body
  | .consent => orInternalError do
      let _ ← currentSession st.toCrates d headers
      return rejection body
  | .appCreate | .appUpdate _ | .appRotateSecret _ | .appDelete _ =>
      orInternalError (Apps.signedInUser st d headers "/" fun _ => return rejection body)

/-- A `POST` to the route; `none` stands for a body that is not a form. -/
def post (st : AppState) (d : Draws) (headers : HeaderMap) (body : Option (List (String × String)))
    (route : FormRoute) : Service Empty Response :=
  match body.bind fun pairs => route.request headers pairs with
  | some req => respond st d req
  | none => route.reject st d headers body

def servePost (st : AppState) (d : Draws) (faults : List Bool) (headers : HeaderMap)
    (body : Option (List (String × String))) (route : FormRoute) (db : Db) : Response × Db :=
  let r := (route.post st d headers body).serve faults db
  (Prog.value r.1, r.2)

end FormRoute

/-! ### Requests with a wrong token -/

section gate

variable {st : AppState} {d : Draws} {faults : List Bool} {headers : HeaderMap} {db : Db}

/-- A page that refuses the token at once. -/
theorem serve_csrfFailure {req : Request} {p : Service AppError Response}
    (hreq : respond st d req = orInternalError p) (hp : p = .ret csrfFailure) :
    serve st d faults req db = (csrfFailure, db) := by
  rw [serve, hreq, hp]
  rfl

theorem serve_signIn_refused {form : SignInForm} (h : Csrf.verify headers form.csrfToken = false) :
    serve st d faults (.signIn headers form) db = (csrfFailure, db) := by
  refine serve_csrfFailure rfl ?_
  unfold Pages.signIn
  simp only [h]
  rfl

theorem serve_signUp_refused {form : SignUpForm} (h : Csrf.verify headers form.csrfToken = false) :
    serve st d faults (.signUp headers form) db = (csrfFailure, db) := by
  refine serve_csrfFailure rfl ?_
  unfold Pages.signUp
  simp only [h]
  rfl

theorem serve_logout_refused {csrfToken : Option String} (h : Csrf.verify headers csrfToken = false) :
    serve st d faults (.logout headers csrfToken) db = (csrfFailure, db) := by
  refine serve_csrfFailure rfl ?_
  unfold Pages.logout
  simp only [h]
  rfl

/-- A page whose program leaves the tables alone. -/
theorem serve_page_unchanged {req : Request} {p : Service AppError Response}
    (hreq : respond st d req = orInternalError p)
    (hp : p.wp (true ∈ faults) (fun _ c => c.db = db) ⟨db, none⟩) : (serve st d faults req db).2 = db := by
  refine Prog.wp_serve (S := Sharp) (R := fun _ db' => db' = db) _ faults db ?_
  rw [hreq]
  show (Prog.bind p.attempt _).wp _ _ _
  rw [Prog.wp_attempt_bind]
  refine Prog.wp_mono (fun r c h => ?_) _ _ hp
  cases r with
  | ok response => exact h
  | error e => exact h

theorem serve_consent_refused {pairs : List (String × String)}
    (h : ∀ params, Params.fromPairs pairs = .ok params →
      Csrf.verify headers (params.get Csrf.csrfField) = false) :
    (serve st d faults (.consent headers pairs) db).2 = db := by
  refine serve_page_unchanged rfl ?_
  unfold consent
  refine wp_currentSession (fun _ _ => rfl) fun session hs => ?_
  cases hparams : Params.fromPairs pairs with
  | error e => rfl
  | ok params =>
      simp only [h params hparams]
      rfl

/-- A form of the portal. -/
inductive Request.PortalForm (headers : HeaderMap) (pairs : List (String × String)) : Request → Prop where
  | create : PortalForm headers pairs (.appCreate headers pairs)
  | update (clientId : String) : PortalForm headers pairs (.appUpdate headers clientId pairs)
  | rotateSecret (clientId : String) : PortalForm headers pairs (.appRotateSecret headers clientId pairs)
  | delete (clientId : String) : PortalForm headers pairs (.appDelete headers clientId pairs)

theorem serve_portal_refused {req : Request} {pairs : List (String × String)}
    (hreq : req.PortalForm headers pairs)
    (h : Csrf.verify headers (AppForm.fromPairs pairs).csrfToken = false) :
    (serve st d faults req db).2 = db := by
  have hregisters : req.Registers := by cases hreq <;> constructor
  have heffect := serve_registry st d faults hregisters db
  have hnot : Csrf.verify headers (AppForm.fromPairs pairs).csrfToken ≠ true := by simp [h]
  generalize (serve st d faults req db).2 = db' at heffect ⊢
  cases heffect with
  | unchanged => rfl
  | scopeAdded scope => cases hreq
  | registered req new hnew details hdetails hinsert =>
      cases hnew with
      | commandLine => cases hreq
      | portal headers pairs session user hs hcsrf hcount =>
          cases hreq
          exact absurd hcsrf hnot
  | updated headers clientId pairs session user app hm raw details hdetails =>
      cases hreq
      exact absurd hm.csrf hnot
  | rotated headers clientId pairs session user app hm hconfidential =>
      cases hreq
      exact absurd hm.csrf hnot
  | deleted headers clientId pairs session user app hm =>
      cases hreq
      exact absurd hm.csrf hnot

namespace FormRoute

variable {body : Option (List (String × String))} {route : FormRoute}

theorem rejection_keeps : (rejection body).KeepsSession := keeps_plain _ _

/-- A rejected body changes nothing. -/
theorem reject_unchanged : ((route.reject st d headers body).serve faults db).2 = db ∧
    (Prog.value ((route.reject st d headers body).serve faults db).1).KeepsSession := by
  have hpage {p : Service AppError Response} (hp : p.wp (true ∈ faults) (fun _ c => c.db = db) ⟨db, none⟩)
      (hshape : p.Yields (Response.Shape st d headers)) :
      ((orInternalError p).serve faults db).2 = db ∧
        (Prog.value ((orInternalError p).serve faults db).1).KeepsSession := by
    have hanswer := serve_yields (orInternalError_yields hshape (.plain _ _ rfl)) faults db
    refine ⟨?_, hanswer.keepsSession⟩
    refine Prog.wp_serve (S := Sharp) (R := fun _ db' => db' = db) _ faults db ?_
    show (Prog.bind p.attempt _).wp _ _ _
    rw [Prog.wp_attempt_bind]
    refine Prog.wp_mono (fun r c h => ?_) _ _ hp
    cases r with
    | ok response => exact h
    | error e => exact h
  have hsignedIn : (Apps.signedInUser st d headers "/" fun _ => .ret (rejection body)).wp
      (true ∈ faults) (fun _ c => c.db = db) ⟨db, none⟩ :=
    signedInUser_wp (P := fun db' => db' = db) rfl fun _ _ _ => rfl
  have hportal := hpage hsignedIn (Apps.signedInUser_shape fun _ => .ret _ (.plain _ _ rfl))
  cases route with
  | signIn => exact ⟨rfl, rejection_keeps⟩
  | signUp => exact ⟨rfl, rejection_keeps⟩
  | logout => exact ⟨rfl, rejection_keeps⟩
  | consent =>
      refine hpage ?_ (Prog.yields_seq fun _ => .ret _ (.plain _ _ rfl))
      exact wp_currentSession (fun _ _ => rfl) fun _ _ => rfl
  | appCreate => exact hportal
  | appUpdate clientId => exact hportal
  | appRotateSecret clientId => exact hportal
  | appDelete clientId => exact hportal

/-- **A form whose token is wrong changes nothing.** -/
theorem refused_unchanged (h : ∀ pairs, body = some pairs →
      Csrf.verify headers (route.csrfToken pairs) = false) :
    (route.servePost st d faults headers body db).2 = db ∧
      (route.servePost st d faults headers body db).1.KeepsSession := by
  cases hrequest : body.bind fun pairs => route.request headers pairs with
  | none =>
      have hpost : route.post st d headers body = route.reject st d headers body := by
        unfold post
        rw [hrequest]
      unfold servePost
      rw [hpost]
      exact reject_unchanged
  | some req =>
      have hserve : route.servePost st d faults headers body db = serve st d faults req db := by
        unfold servePost serve post
        rw [hrequest]
      rw [hserve]
      obtain ⟨pairs, rfl, hreq⟩ := Option.bind_eq_some_iff.1 hrequest
      have hverify := h pairs rfl
      have hportal (hform : req.PortalForm headers pairs)
          (htoken : route.csrfToken pairs = (AppForm.fromPairs pairs).csrfToken) :
          (serve st d faults req db).2 = db ∧ (serve st d faults req db).1.KeepsSession := by
        rw [htoken] at hverify
        refine ⟨serve_portal_refused hform hverify, fun hsets => ?_⟩
        have hauthenticating := serve_sets hsets
        cases hform <;> cases hauthenticating
      cases route with
      | signIn =>
          obtain ⟨form, hform, rfl⟩ := Option.map_eq_some_iff.1 hreq
          have htoken : csrfToken pairs .signIn = form.csrfToken := by
            unfold csrfToken
            rw [hform]
            rfl
          rw [serve_signIn_refused (htoken ▸ hverify)]
          exact ⟨rfl, keeps_render _ _⟩
      | signUp =>
          obtain ⟨form, hform, rfl⟩ := Option.map_eq_some_iff.1 hreq
          have htoken : csrfToken pairs .signUp = form.csrfToken := by
            unfold csrfToken
            rw [hform]
            rfl
          rw [serve_signUp_refused (htoken ▸ hverify)]
          exact ⟨rfl, keeps_render _ _⟩
      | logout =>
          obtain ⟨token, hform, rfl⟩ := Option.map_eq_some_iff.1 hreq
          have htoken : csrfToken pairs .logout = token := by
            unfold csrfToken
            rw [hform]
            rfl
          rw [serve_logout_refused (htoken ▸ hverify)]
          exact ⟨rfl, keeps_render _ _⟩
      | consent =>
          cases hreq
          refine ⟨serve_consent_refused fun params hparams => ?_, fun hsets => ?_⟩
          · have htoken : csrfToken pairs .consent = params.get Csrf.csrfField := by
              unfold csrfToken
              rw [hparams]
              rfl
            rwa [htoken] at hverify
          · cases serve_sets hsets
      | appCreate =>
          cases hreq
          exact hportal .create rfl
      | appUpdate clientId =>
          cases hreq
          exact hportal (.update clientId) rfl
      | appRotateSecret clientId =>
          cases hreq
          exact hportal (.rotateSecret clientId) rfl
      | appDelete clientId =>
          cases hreq
          exact hportal (.delete clientId) rfl

end FormRoute

/-- A token that is right is the cookie's, byte for byte. -/
theorem verify_eq_true {submitted : Option String} (h : Csrf.verify headers submitted = true) :
    ∃ token value, submitted = some token ∧
      CookieManager.get headers Csrf.csrfCookie = some value ∧ value ≠ "" ∧ utf8 value = utf8 token := by
  unfold Csrf.verify at h
  cases hcookie : CookieManager.get headers Csrf.csrfCookie with
  | none =>
      rw [hcookie] at h
      cases h
  | some value =>
      cases submitted with
      | none =>
          rw [hcookie] at h
          cases h
      | some token =>
          rw [hcookie] at h
          have hsame : value = token := by simpa using h
          exact ⟨token, value, rfl, rfl, CookieManager.get_ne_empty hcookie, by rw [hsame]⟩

end gate

/-- **Every form that changes anything carries the value of the CSRF cookie.** -/
theorem csrf_gate (st : AppState) (d : Draws) (faults : List Bool) (headers : HeaderMap)
    (body : Option (List (String × String))) (route : FormRoute) (db : Db)
    (h : (route.servePost st d faults headers body db).2.users ≠ db.users ∨
      (route.servePost st d faults headers body db).2.sessions ≠ db.sessions ∨
      (route.servePost st d faults headers body db).2.clients ≠ db.clients ∨
      (route.servePost st d faults headers body db).2.consents ≠ db.consents ∨
      (route.servePost st d faults headers body db).2.codes ≠ db.codes ∨
      (route.servePost st d faults headers body db).2.refreshTokens ≠ db.refreshTokens ∨
      (route.servePost st d faults headers body db).1.Sets Session.sessionCookie) :
    ∃ pairs token value, body = some pairs ∧ route.csrfToken pairs = some token ∧
      CookieManager.get headers Csrf.csrfCookie = some value ∧ value ≠ "" ∧
      utf8 value = utf8 token := by
  by_contra hnone
  have hrefused (pairs : List (String × String)) (hbody : body = some pairs) :
      Csrf.verify headers (route.csrfToken pairs) = false := by
    rw [← Bool.not_eq_true]
    intro hverify
    obtain ⟨token, value, htoken, hcookie, hne, hsame⟩ := verify_eq_true hverify
    exact hnone ⟨pairs, token, value, hbody, htoken, hcookie, hne, hsame⟩
  have hunchanged : (route.servePost st d faults headers body db).2 = db ∧
      (route.servePost st d faults headers body db).1.KeepsSession :=
    FormRoute.refused_unchanged hrefused
  have hkeeps := hunchanged.2
  rw [hunchanged.1] at h
  rcases h with h | h | h | h | h | h | h
  · exact h rfl
  · exact h rfl
  · exact h rfl
  · exact h rfl
  · exact h rfl
  · exact h rfl
  · exact hkeeps h

/-- A logout in the sample. -/
theorem csrf_gate_logout : ∃ pairs token value, some [("csrf_token", "x")] = some pairs ∧
    FormRoute.logout.csrfToken pairs = some token ∧
      CookieManager.get Sample.browser Csrf.csrfCookie = some value ∧ value ≠ "" ∧
      utf8 value = utf8 token := by
  have hcookies : (FormRoute.logout.servePost Sample.state (Sample.draws 2) [] Sample.browser
      (some [("csrf_token", "x")]) Sample.signedUp).1.setCookie =
        [CookieManager.clear Session.sessionCookie Sample.state.secureCookies] := by
    decide +kernel
  have hsets : (FormRoute.logout.servePost Sample.state (Sample.draws 2) [] Sample.browser
      (some [("csrf_token", "x")]) Sample.signedUp).1.Sets Session.sessionCookie := by
    refine ⟨CookieManager.clear Session.sessionCookie Sample.state.secureCookies, ?_, ?_⟩
    · rw [hcookies]
      exact List.mem_singleton_self _
    · exact CookieManager.splitOnce_set (by decide) _ _
  exact csrf_gate Sample.state (Sample.draws 2) [] Sample.browser _ .logout Sample.signedUp
    (.inr (.inr (.inr (.inr (.inr (.inr hsets))))))

end SharpOauth
