import SharpOauth.Effects

/-! # Forms and cookies of the responses

A response has one of three shapes: it has neither a form nor a cookie, it is a page with a form
and with the CSRF cookie if that is new (`Response.Shape`), or it is the redirect after a sign-in,
a sign-up or a logout, with the session cookie (`serve_shape`).

Hence only sign-in, sign-up and logout answer with a `Set-Cookie` header for the session cookie
(`serve_sets`); every other response leaves the session of the browser alone. -/

namespace SharpOauth

/-- The response leaves the session cookie of the browser alone. -/
def Response.KeepsSession (r : Response) : Prop := ¬r.Sets Session.sessionCookie

/-- The CSRF token in the form of a page. -/
def Page.csrf? : Page → Option String
  | .home _ csrf | .signIn csrf _ _ _ | .signUp csrf _ _ _ _ | .consent csrf _ _ _ _
  | .developerNewApp csrf _ _ _ | .developerApp csrf _ _ _ _ _ => some csrf
  | .developerApps _ _ | .error _ _ => none

def Body.csrf? : Body → Option String
  | .page p => p.csrf?
  | .redirect _ | .tokens _ | .oauthError _ | .empty => none

/-- The token of the forms in the answer to a request. -/
def formToken (st : AppState) (d : Draws) (headers : HeaderMap) : Csrf.CsrfToken :=
  Csrf.issue headers st.secureCookies (d.secret 2)

/-- A response without a form and without cookies, or a page with a form whose token comes with
the page if it is new. -/
inductive Response.Shape (st : AppState) (d : Draws) (headers : HeaderMap) : Response → Prop where
  | plain (status : ℕ) (body : Body) (h : body.csrf? = none) :
      Response.Shape st d headers { status, body }
  | form (status : ℕ) (page : Page) (h : page.csrf? = some (formToken st d headers).value) :
      Response.Shape st d headers (withCsrfCookie (render status page) (formToken st d headers))

section pages

variable {st : AppState} {d : Draws} {headers : HeaderMap}

theorem keeps_render (status : ℕ) (page : Page) : (render status page).KeepsSession :=
  render_sets status page _

/-- A response without cookies. -/
theorem keeps_plain (status : ℕ) (body : Body) :
    ({ status, body } : Response).KeepsSession := by
  rintro ⟨header, hmem, -⟩
  exact absurd hmem List.not_mem_nil

theorem Response.Shape.keepsSession {r : Response} (h : r.Shape st d headers) : r.KeepsSession := by
  cases h with
  | plain status body h => exact keeps_plain status body
  | form status page h => exact withCsrfCookie_sets (keeps_render status page) _ _ _

theorem authorizationError_shape (e : Authorization.AuthorizationError) :
    (authorizationError st e).Shape st d headers := by
  unfold authorizationError
  split
  · exact .plain _ _ rfl
  · split
    · exact .plain _ _ rfl
    · exact .plain _ _ rfl
  · exact .plain _ _ rfl

theorem orInternalError_yields {P : Response → Prop} {p : Service AppError Response}
    (hp : p.Yields P) (herror : P internalError) : (orInternalError p).Yields P := by
  refine Prog.yields_bind (Prog.yields_attempt hp) fun r hr => ?_
  split
  · exact .ret _ (hr _ rfl)
  · exact .ret _ herror

theorem authorize_shape (pairs : List (String × String)) :
    (authorize st d headers pairs).Yields (Response.Shape st d headers) := by
  refine Prog.yields_seq fun session => ?_
  split
  · exact .ret _ (.plain _ _ rfl)
  · refine Prog.yields_seq fun r => ?_
    split
    · exact .ret _ (.plain _ _ rfl)
    · exact .ret _ (.form _ _ rfl)
    · exact .ret _ (.plain _ _ rfl)
    · exact .ret _ (authorizationError_shape _)

theorem consent_shape (pairs : List (String × String)) :
    (consent st d headers pairs).Yields (Response.Shape st d headers) := by
  refine Prog.yields_seq fun session => ?_
  split
  · exact .ret _ (.plain _ _ rfl)
  split
  · exact .ret _ (.plain _ _ rfl)
  dsimp only
  split
  · exact .ret _ (.plain _ _ rfl)
  · refine Prog.yields_seq fun r => ?_
    split
    · exact .ret _ (.plain _ _ rfl)
    · exact .ret _ (authorizationError_shape _)

theorem token_shape (form : Option (List (String × String))) :
    (token st d headers form).Yields (Response.Shape st d headers) := by
  unfold token
  split
  · refine Prog.yields_seq fun r => ?_
    split <;> exact .ret _ (.plain _ _ rfl)
  · exact .ret _ (.plain _ _ rfl)

theorem revoke_shape (form : Option (List (String × String))) :
    (revoke st d headers form).Yields (Response.Shape st d headers) := by
  unfold revoke
  split
  · refine Prog.yields_seq fun r => ?_
    split <;> exact .ret _ (.plain _ _ rfl)
  · exact .ret _ (.plain _ _ rfl)

theorem home_shape : (Pages.home st d headers).Yields (Response.Shape st d headers) :=
  Prog.yields_seq fun _ => .ret _ (.form _ _ rfl)

namespace Apps

theorem signedInUser_shape {returnTo : String} {handler : User → Service AppError Response}
    (h : ∀ user, (handler user).Yields (Response.Shape st d headers)) :
    (signedInUser st d headers returnTo handler).Yields (Response.Shape st d headers) := by
  refine Prog.yields_seq fun session => ?_
  split
  · exact h _
  · exact .ret _ (.plain _ _ rfl)

theorem ownedApp_shape {user : User} {clientId : String}
    {handler : OAuthClient → Service AppError Response}
    (h : ∀ app, (handler app).Yields (Response.Shape st d headers)) :
    (ownedApp user clientId handler).Yields (Response.Shape st d headers) := by
  refine Prog.yields_seq fun app => ?_
  split
  · exact h _
  · exact .ret _ (.plain _ _ rfl)

theorem newAppForm_shape (status : ℕ) (form : AppForm) (error : Option String) :
    (newAppForm st d headers status form error).Yields (Response.Shape st d headers) :=
  Prog.yields_seq fun _ => .ret _ (.form _ _ rfl)

theorem appPage_shape (status : ℕ) (app : OAuthClient) (form : AppForm)
    (messages : DeveloperAppMessages) :
    (appPage st d headers status app form messages).Yields (Response.Shape st d headers) :=
  Prog.yields_seq fun _ => .ret _ (.form _ _ rfl)

theorem listPage_shape (path : String) (notice : Option String) :
    (listPage st d headers path notice).Yields (Response.Shape st d headers) :=
  signedInUser_shape fun _ => Prog.yields_seq fun _ => .ret _ (.plain _ _ rfl)

theorem newPage_shape (path : String) : (newPage st d headers path).Yields (Response.Shape st d headers) :=
  signedInUser_shape fun _ => newAppForm_shape _ _ _

theorem createPage_shape (pairs : List (String × String)) :
    (createPage st d headers pairs).Yields (Response.Shape st d headers) := by
  refine signedInUser_shape fun user => ?_
  dsimp only
  split_ifs
  · exact .ret _ (.plain _ _ rfl)
  · refine Prog.yields_seq fun r => ?_
    split
    · exact appPage_shape _ _ _ _
    · exact .fail _
    · exact newAppForm_shape _ _ _

theorem showPage_shape (path clientId : String) (notice : Option String) :
    (showPage st d headers path clientId notice).Yields (Response.Shape st d headers) :=
  signedInUser_shape fun _ => ownedApp_shape fun _ => appPage_shape _ _ _ _

theorem updatePage_shape (clientId : String) (pairs : List (String × String)) :
    (updatePage st d headers clientId pairs).Yields (Response.Shape st d headers) := by
  refine signedInUser_shape fun user => ownedApp_shape fun app => ?_
  dsimp only
  split_ifs
  · exact .ret _ (.plain _ _ rfl)
  · refine Prog.yields_seq fun r => ?_
    split
    · exact .ret _ (.plain _ _ rfl)
    · exact .fail _
    · exact appPage_shape _ _ _ _

theorem rotateSecretPage_shape (clientId : String) (pairs : List (String × String)) :
    (rotateSecretPage st d headers clientId pairs).Yields (Response.Shape st d headers) := by
  refine signedInUser_shape fun user => ownedApp_shape fun app => ?_
  split_ifs
  · exact .ret _ (.plain _ _ rfl)
  · refine Prog.yields_seq fun r => ?_
    split
    · exact appPage_shape _ _ _ _
    · exact .ret _ (.plain _ _ rfl)

theorem deletePage_shape (clientId : String) (pairs : List (String × String)) :
    (deletePage st d headers clientId pairs).Yields (Response.Shape st d headers) := by
  refine signedInUser_shape fun user => ownedApp_shape fun app => ?_
  dsimp only
  split_ifs
  · exact .ret _ (.plain _ _ rfl)
  · exact appPage_shape _ _ _ _
  · exact Prog.yields_seq fun _ => .ret _ (.plain _ _ rfl)

end Apps

theorem createClient_shape (name : String) (redirectUris : List String) (scopes : String)
    (isPublic : Bool) :
    (createClient st d name redirectUris scopes isPublic).Yields (Response.Shape st d headers) := by
  unfold createClient
  split
  · exact .ret _ (.plain _ _ rfl)
  · refine Prog.yields_seq fun r => ?_
    split <;> exact .ret _ (.plain _ _ rfl)

theorem addScope_shape (scope : ScopeDescription) :
    (addScope scope).Yields (Response.Shape st d headers) := by
  refine Prog.yields_seq fun r => ?_
  split <;> exact .ret _ (.plain _ _ rfl)

/-- The redirect after a sign-in, a sign-up or a logout. -/
inductive Response.SetsSession (st : AppState) : Response → Prop where
  | intro (location value : String) (maxAge : Duration) : Response.SetsSession st
      { redirect location with setCookie := [CookieManager.set Session.sessionCookie value
          (some maxAge) st.secureCookies] }

/-- A response of one of the three shapes. -/
def Response.Regular (st : AppState) (d : Draws) (headers : HeaderMap) (r : Response) : Prop :=
  r.Shape st d headers ∨ r.SetsSession st

namespace Pages

theorem startSession_regular (user : User) (returnTo : String) :
    (startSession st d headers user returnTo).Yields (Response.Regular st d headers) := by
  unfold startSession
  split
  · exact Prog.yields_seq fun _ => Prog.yields_seq fun _ => .ret _ (.inr (.intro _ _ _))
  · exact Prog.yields_seq fun _ => .ret _ (.inr (.intro _ _ _))

theorem signIn_regular (form : SignInForm) :
    (signIn st d headers form).Yields (Response.Regular st d headers) := by
  unfold signIn
  split_ifs
  · exact .ret _ (.inl (.plain _ _ rfl))
  · refine Prog.yields_seq fun user => ?_
    split
    · exact startSession_regular _ _
    · exact .ret _ (.inl (.form _ _ rfl))

theorem signUp_regular (form : SignUpForm) :
    (signUp st d headers form).Yields (Response.Regular st d headers) := by
  unfold signUp
  split_ifs
  · exact .ret _ (.inl (.plain _ _ rfl))
  · refine Prog.yields_seq fun r => ?_
    split
    · exact startSession_regular _ _
    · exact .fail _
    · exact .ret _ (.inl (.form _ _ rfl))

theorem logout_regular (csrfToken : Option String) :
    (logout st d headers csrfToken).Yields (Response.Regular st d headers) := by
  unfold logout
  split_ifs
  · exact .ret _ (.inl (.plain _ _ rfl))
  split
  · exact Prog.yields_seq fun _ => .ret _ (.inr (.intro _ _ _))
  · exact .ret _ (.inr (.intro _ _ _))

end Pages

end pages

/-- The headers of a request over HTTP. -/
def Request.headers? : Request → Option HeaderMap
  | .authorize headers _ | .consent headers _ | .token headers _ | .revoke headers _ | .home headers
  | .signInPage headers _ | .signIn headers _ | .signUpPage headers _ | .signUp headers _
  | .logout headers _ | .appList headers _ _ | .appNew headers _ | .appCreate headers _
  | .appShow headers _ _ _ | .appUpdate headers _ _ | .appRotateSecret headers _ _
  | .appDelete headers _ _ => some headers
  | .createClient _ _ _ _ | .addScope _ => none

/-- The requests that may set or clear the session cookie. -/
inductive Request.Authenticating : Request → Prop where
  | signIn (headers : HeaderMap) (form : SignInForm) : (Request.signIn headers form).Authenticating
  | signUp (headers : HeaderMap) (form : SignUpForm) : (Request.signUp headers form).Authenticating
  | logout (headers : HeaderMap) (csrfToken : Option String) :
      (Request.logout headers csrfToken).Authenticating

/-- The response of a program all of whose responses have a property. -/
theorem serve_yields {P : Response → Prop} {p : Service Empty Response} (hp : p.Yields P)
    (faults : List Bool) (db : Db) : P (Prog.value (p.serve faults db).1) := by
  refine Prog.run_of_yields hp faults { db } _ ?_
  rw [Prog.serve]
  cases (p.run faults { db }).1 with
  | ok r => rfl
  | error e => exact e.elim

/-- **The shapes of the responses.** -/
theorem serve_shape {st : AppState} {d : Draws} (faults : List Bool) {req : Request} (db : Db)
    {headers : HeaderMap} (hheaders : ∀ headers', req.headers? = some headers' → headers' = headers) :
    (serve st d faults req db).1.Shape st d headers ∨
      req.Authenticating ∧ (serve st d faults req db).1.Regular st d headers := by
  have hshape {p : Service Empty Response} (hreq : respond st d req = p)
      (hp : p.Yields (Response.Shape st d headers)) :
      (serve st d faults req db).1.Shape st d headers := by
    subst hreq
    exact serve_yields hp faults db
  have hpage {p : Service AppError Response} (hreq : respond st d req = orInternalError p)
      (hp : p.Yields (Response.Shape st d headers)) :
      (serve st d faults req db).1.Shape st d headers :=
    hshape hreq (orInternalError_yields hp (.plain _ _ rfl))
  have hregular {p : Service AppError Response} (hreq : respond st d req = orInternalError p)
      (hp : p.Yields (Response.Regular st d headers)) :
      (serve st d faults req db).1.Regular st d headers := by
    have hall := serve_yields (orInternalError_yields hp (.inl (.plain _ _ rfl))) faults db
    rwa [← hreq] at hall
  cases req with
  | signIn headers' form =>
      cases hheaders headers' rfl
      exact .inr ⟨.signIn _ _, hregular rfl (Pages.signIn_regular form)⟩
  | signUp headers' form =>
      cases hheaders headers' rfl
      exact .inr ⟨.signUp _ _, hregular rfl (Pages.signUp_regular form)⟩
  | logout headers' csrfToken =>
      cases hheaders headers' rfl
      exact .inr ⟨.logout _ _, hregular rfl (Pages.logout_regular csrfToken)⟩
  | authorize headers' pairs =>
      cases hheaders headers' rfl
      exact .inl (hpage rfl (authorize_shape pairs))
  | consent headers' pairs =>
      cases hheaders headers' rfl
      exact .inl (hpage rfl (consent_shape pairs))
  | token headers' form =>
      cases hheaders headers' rfl
      exact .inl (hshape rfl (token_shape form))
  | revoke headers' form =>
      cases hheaders headers' rfl
      exact .inl (hshape rfl (revoke_shape form))
  | home headers' =>
      cases hheaders headers' rfl
      exact .inl (hpage rfl home_shape)
  | signInPage headers' returnTo =>
      cases hheaders headers' rfl
      exact .inl (hshape rfl (.ret _ (.form _ _ rfl)))
  | signUpPage headers' returnTo =>
      cases hheaders headers' rfl
      exact .inl (hshape rfl (.ret _ (.form _ _ rfl)))
  | appList headers' path notice =>
      cases hheaders headers' rfl
      exact .inl (hpage rfl (Apps.listPage_shape path notice))
  | appNew headers' path =>
      cases hheaders headers' rfl
      exact .inl (hpage rfl (Apps.newPage_shape path))
  | appCreate headers' pairs =>
      cases hheaders headers' rfl
      exact .inl (hpage rfl (Apps.createPage_shape pairs))
  | appShow headers' path clientId notice =>
      cases hheaders headers' rfl
      exact .inl (hpage rfl (Apps.showPage_shape path clientId notice))
  | appUpdate headers' clientId pairs =>
      cases hheaders headers' rfl
      exact .inl (hpage rfl (Apps.updatePage_shape clientId pairs))
  | appRotateSecret headers' clientId pairs =>
      cases hheaders headers' rfl
      exact .inl (hpage rfl (Apps.rotateSecretPage_shape clientId pairs))
  | appDelete headers' clientId pairs =>
      cases hheaders headers' rfl
      exact .inl (hpage rfl (Apps.deletePage_shape clientId pairs))
  | createClient name redirectUris scopes isPublic =>
      exact .inl (hshape rfl (createClient_shape name redirectUris scopes isPublic))
  | addScope scope => exact .inl (hshape rfl (addScope_shape scope))

/-- **Only sign-in, sign-up and logout set the session cookie.** -/
theorem serve_sets {st : AppState} {d : Draws} {faults : List Bool} {req : Request} {db : Db}
    (h : (serve st d faults req db).1.Sets Session.sessionCookie) : req.Authenticating := by
  have hheaders : ∀ headers', req.headers? = some headers' →
      headers' = req.headers?.getD ⟨none, []⟩ := by
    intro headers' hsome
    rw [hsome]
    rfl
  rcases serve_shape faults db hheaders with hshape | ⟨hauthenticating, -⟩
  · exact absurd h hshape.keepsSession
  · exact hauthenticating

end SharpOauth
