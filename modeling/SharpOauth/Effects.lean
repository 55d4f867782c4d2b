import SharpOauth.TokenSafety

/-! # What any request does

`Effect` relates a request and the tables before it to the response and the tables after it;
`serve_effect` says that it covers everything.  Invariants of runs are proved by cases on it.

The requests of the OAuth endpoints have effects of their own.  Of the others, those of the
account pages change users and sessions (`AccountEffect`), and those of the developer portal,
the command line and the migrations change clients, with all that belongs to them, and the
scope registry (`Registry`). -/

namespace SharpOauth

/-! ### The registries -/

/-- The statements of the developer portal, the command line and the migrations; a new client
gets the first drawn id. -/
inductive Stmt.Registers (d : Draws) : Stmt → Prop where
  | read (q : Stmt) (h : q.writes = []) : Registers d q
  | scopesInsert (scope : ScopeDescription) : Registers d (.scopesInsert scope)
  | clientsInsert (client : OAuthClient) (h : client.id = d.uuid 0) : Registers d (.clientsInsert client)
  | clientsUpdateDetails (id : Uuid) (name : String) (redirectUris allowedScopes : List String)
      (now : Instant) : Registers d (.clientsUpdateDetails id name redirectUris allowedScopes now)
  | clientsUpdateSecretHash (id : Uuid) (secretHash : String) (now : Instant) :
      Registers d (.clientsUpdateSecretHash id secretHash now)
  | clientsDelete (id : Uuid) : Registers d (.clientsDelete id)

/-- Those that serve one owner: they add and list the applications of the owner alone. -/
inductive Stmt.Manages (d : Draws) (owner : Option Uuid) : Stmt → Prop where
  | scopesListAll : Manages d owner .scopesListAll
  | scopesFindByNames (names : List String) : Manages d owner (.scopesFindByNames names)
  | clientsListByOwner (id : Uuid) (h : owner = some id) : Manages d owner (.clientsListByOwner id)
  | clientsCountByOwner (id : Uuid) (h : owner = some id) : Manages d owner (.clientsCountByOwner id)
  | clientsFindOwned (id : Uuid) (clientId : String) (h : owner = some id) :
      Manages d owner (.clientsFindOwned id clientId)
  | clientsInsert (client : OAuthClient) (hid : client.id = d.uuid 0)
      (hclientId : client.clientId = Client.newClientId (d.secret 0))
      (howner : client.ownerUserId = owner) : Manages d owner (.clientsInsert client)
  | clientsUpdateDetails (id : Uuid) (name : String) (redirectUris allowedScopes : List String)
      (now : Instant) : Manages d owner (.clientsUpdateDetails id name redirectUris allowedScopes now)
  | clientsUpdateSecretHash (id : Uuid) (secretHash : String) (now : Instant) :
      Manages d owner (.clientsUpdateSecretHash id secretHash now)
  | clientsDelete (id : Uuid) : Manages d owner (.clientsDelete id)

theorem Stmt.Manages.registers {d : Draws} {owner : Option Uuid} {q : Stmt} (h : q.Manages d owner) :
    q.Registers d := by
  cases h with
  | clientsInsert client hid hclientId howner => exact .clientsInsert client hid
  | clientsUpdateDetails => exact .clientsUpdateDetails ..
  | clientsUpdateSecretHash => exact .clientsUpdateSecretHash ..
  | clientsDelete id => exact .clientsDelete id
  | _ => exact .read _ rfl

/-- The tables after some of these statements. -/
abbrev Registry (d : Draws) : Db → Db → Prop :=
  Relation.ReflTransGen fun db db' => ∃ q : Stmt, q.Registers d ∧ db' = db.after q

theorem Registry.ofOnly {d : Draws} {ε α : Type} {p : Service ε α} (h : p.Only (Stmt.Registers d))
    (faults : List Bool) (db : Db) : Registry d db (p.serve faults db).2 :=
  Prog.run_of_only (S := Sharp) (I := Registry d db) (fun q _ hq hs => hs.tail ⟨q, hq, rfl⟩) h faults
    { db } .refl .refl

section only

variable {ε α : Type} [Into SqlError ε] {d : Draws}

theorem only_registers {q : Stmt} (h : q.Registers d) :
    (query q : Service ε (Ret q)).Only (Stmt.Registers d) := Prog.only_query (S := Sharp) h

theorem only_manages {owner : Option Uuid} {q : Stmt} (h : q.Manages d owner) :
    (query q : Service ε (Ret q)).Only (Stmt.Manages d owner) := Prog.only_query (S := Sharp) h

end only

theorem Registry.only_of_manages {ε α : Type} {d : Draws} {owner : Option Uuid} {p : Service ε α}
    (h : p.Only (Stmt.Manages d owner)) : p.Only (Stmt.Registers d) :=
  Prog.only_mono (fun _ hq => hq.registers) h

theorem currentSession_only (cr : Crates) (d : Draws) (headers : HeaderMap) :
    (currentSession cr d headers).Only (Stmt.Registers d) := by
  rw [currentSession]
  split
  · exact .ret _
  · refine Prog.only_bind (only_registers (.read _ rfl)) fun found => ?_
    split
    · exact .ret _
    · refine Prog.only_bind (only_registers (.read _ rfl)) fun owner => ?_
      split <;> exact .ret _

namespace Client

variable (cr : Crates) (d : Draws) (owner : Option Uuid)

theorem validateDetails_only (details : ClientDetails) :
    (validateDetails cr details).Only (Stmt.Manages d owner) := by
  simp only [validateDetails, Prog.bind_eq]
  split_ifs
  · exact .fail _
  · exact .fail _
  · exact .fail _
  · exact .fail _
  · exact Prog.only_bind (Prog.only_ofExcept _) fun _ => .fail _
  · refine Prog.only_bind (Prog.only_ofExcept _) fun _ => ?_
    refine Prog.only_bind (only_manages (.scopesFindByNames _)) fun known => ?_
    split_ifs
    · exact .fail _
    · exact .ret _

theorem register_only (new : NewClient) :
    (register cr d new).Only (Stmt.Manages d new.ownerUserId) :=
  Prog.only_bind (validateDetails_only cr d _ _) fun _ =>
    Prog.only_bind (only_manages (.clientsInsert _ rfl rfl rfl)) fun _ => .ret _

theorem updateDetails_only (client : OAuthClient) (details : ClientDetails) :
    (updateDetails cr d client details).Only (Stmt.Manages d owner) :=
  Prog.only_bind (validateDetails_only cr d owner _) fun _ => only_manages (.clientsUpdateDetails ..)

theorem rotateSecret_only (client : OAuthClient) :
    (rotateSecret cr d client).Only (Stmt.Manages d owner) := by
  simp only [rotateSecret, Prog.bind_eq]
  split_ifs
  · exact .ret _
  · exact Prog.only_bind (only_manages (.clientsUpdateSecretHash ..)) fun _ => .ret _

end Client

namespace Apps

variable (st : AppState) (d : Draws) (headers : HeaderMap)

/-- The page runs as the signed-in user, on the applications of the user. -/
def OwnPage (p : Service AppError Response) : Prop :=
  ∃ (returnTo : String) (handler : User → Service AppError Response),
    p = signedInUser st d headers returnTo handler ∧
      ∀ user, (handler user).Only (Stmt.Manages d (some user.id))

variable {st d headers} in
theorem OwnPage.only {p : Service AppError Response} (h : OwnPage st d headers p) :
    p.Only (Stmt.Registers d) := by
  obtain ⟨returnTo, handler, rfl, hhandler⟩ := h
  refine Prog.only_bind (currentSession_only _ d headers) fun session => ?_
  split
  · exact Registry.only_of_manages (hhandler _)
  · exact .ret _

theorem ownedApp_only (user : User) (clientId : String)
    {handler : OAuthClient → Service AppError Response}
    (h : ∀ app, (handler app).Only (Stmt.Manages d (some user.id))) :
    (ownedApp user clientId handler).Only (Stmt.Manages d (some user.id)) := by
  refine Prog.only_bind (only_manages (.clientsFindOwned _ _ rfl)) fun app => ?_
  split
  · exact h _
  · exact .ret _

section pages

variable (owner : Option Uuid)

theorem newAppForm_only (status : ℕ) (form : AppForm) (error : Option String) :
    (newAppForm st d headers status form error).Only (Stmt.Manages d owner) :=
  Prog.only_bind (only_manages .scopesListAll) fun _ => .ret _

theorem appPage_only (status : ℕ) (app : OAuthClient) (form : AppForm)
    (messages : DeveloperAppMessages) :
    (appPage st d headers status app form messages).Only (Stmt.Manages d owner) :=
  Prog.only_bind (only_manages .scopesListAll) fun _ => .ret _

end pages

theorem create_only (cr : Crates) (owner : User) (form : AppForm) :
    (create cr d owner form).Only (Stmt.Manages d (some owner.id)) := by
  refine Prog.only_bind (only_manages (.clientsCountByOwner _ rfl)) fun count => ?_
  split_ifs
  · exact .fail _
  · exact Prog.only_lift (Client.register_only cr d
      { name := form.name
        redirectUris := form.redirectUriList
        scopes := form.scopeSet
        confidential := !form.isPublic
        ownerUserId := some owner.id })

theorem listPage_own (path : String) (notice : Option String) :
    OwnPage st d headers (listPage st d headers path notice) :=
  ⟨_, _, rfl, fun _ => Prog.only_bind (only_manages (.clientsListByOwner _ rfl)) fun _ => .ret _⟩

theorem newPage_own (path : String) : OwnPage st d headers (newPage st d headers path) :=
  ⟨_, _, rfl, fun _ => newAppForm_only st d headers _ _ _ _⟩

theorem createPage_own (pairs : List (String × String)) :
    OwnPage st d headers (createPage st d headers pairs) := by
  refine ⟨_, _, rfl, fun user => ?_⟩
  dsimp only
  split_ifs
  · exact .ret _
  · refine Prog.only_bind (Prog.only_attempt (create_only d _ _ _)) fun r => ?_
    split
    · exact appPage_only st d headers _ _ _ _ _
    · exact .fail _
    · exact newAppForm_only st d headers _ _ _ _

theorem showPage_own (path clientId : String) (notice : Option String) :
    OwnPage st d headers (showPage st d headers path clientId notice) :=
  ⟨_, _, rfl, fun user => ownedApp_only d user clientId fun _ => appPage_only st d headers _ _ _ _ _⟩

theorem updatePage_own (clientId : String) (pairs : List (String × String)) :
    OwnPage st d headers (updatePage st d headers clientId pairs) := by
  refine ⟨_, _, rfl, fun user => ownedApp_only d user clientId fun app => ?_⟩
  dsimp only
  split_ifs
  · exact .ret _
  · refine Prog.only_bind (Prog.only_attempt
      (Prog.only_lift (Client.updateDetails_only _ d _ app _))) fun r => ?_
    split
    · exact .ret _
    · exact .fail _
    · exact appPage_only st d headers _ _ _ _ _

theorem rotateSecretPage_own (clientId : String) (pairs : List (String × String)) :
    OwnPage st d headers (rotateSecretPage st d headers clientId pairs) := by
  refine ⟨_, _, rfl, fun user => ownedApp_only d user clientId fun app => ?_⟩
  split_ifs
  · exact .ret _
  · refine Prog.only_bind (Prog.only_lift (Client.rotateSecret_only _ d _ app)) fun r => ?_
    split
    · exact appPage_only st d headers _ _ _ _ _
    · exact .ret _

theorem deletePage_own (clientId : String) (pairs : List (String × String)) :
    OwnPage st d headers (deletePage st d headers clientId pairs) := by
  refine ⟨_, _, rfl, fun user => ownedApp_only d user clientId fun app => ?_⟩
  dsimp only
  split_ifs
  · exact .ret _
  · exact appPage_only st d headers _ _ _ _ _
  · exact Prog.only_bind (Prog.only_lift (only_manages (.clientsDelete app.id))) fun _ => .ret _

end Apps

/-- The requests that touch only the registries. -/
inductive Request.Registers : Request → Prop where
  | home (headers : HeaderMap) : (Request.home headers).Registers
  | signInPage (headers : HeaderMap) (returnTo : Option String) :
      (Request.signInPage headers returnTo).Registers
  | signUpPage (headers : HeaderMap) (returnTo : Option String) :
      (Request.signUpPage headers returnTo).Registers
  | appList (headers : HeaderMap) (path : String) (notice : Option String) :
      (Request.appList headers path notice).Registers
  | appNew (headers : HeaderMap) (path : String) : (Request.appNew headers path).Registers
  | appCreate (headers : HeaderMap) (pairs : List (String × String)) :
      (Request.appCreate headers pairs).Registers
  | appShow (headers : HeaderMap) (path clientId : String) (notice : Option String) :
      (Request.appShow headers path clientId notice).Registers
  | appUpdate (headers : HeaderMap) (clientId : String) (pairs : List (String × String)) :
      (Request.appUpdate headers clientId pairs).Registers
  | appRotateSecret (headers : HeaderMap) (clientId : String) (pairs : List (String × String)) :
      (Request.appRotateSecret headers clientId pairs).Registers
  | appDelete (headers : HeaderMap) (clientId : String) (pairs : List (String × String)) :
      (Request.appDelete headers clientId pairs).Registers
  | createClient (name : String) (redirectUris : List String) (scopes : String) (isPublic : Bool) :
      (Request.createClient name redirectUris scopes isPublic).Registers
  | addScope (scope : ScopeDescription) : (Request.addScope scope).Registers

theorem orInternalError_only {d : Draws} {p : Service AppError Response} (h : p.Only (Stmt.Registers d)) :
    (orInternalError p).Only (Stmt.Registers d) := by
  refine Prog.only_bind (Prog.only_attempt h) fun r => ?_
  split <;> exact .ret _

theorem createClient_only (st : AppState) (d : Draws) (name : String) (redirectUris : List String)
    (scopes : String) (isPublic : Bool) :
    (createClient st d name redirectUris scopes isPublic).Only (Stmt.Registers d) := by
  rw [createClient]
  split
  · exact .ret _
  · refine Prog.only_bind (Prog.only_attempt
      (Registry.only_of_manages (Client.register_only _ d _))) fun r => ?_
    split <;> exact .ret _

theorem addScope_only (d : Draws) (scope : ScopeDescription) :
    (addScope scope).Only (Stmt.Registers d) := by
  refine Prog.only_bind (Prog.only_attempt (only_registers (.scopesInsert scope))) fun r => ?_
  split <;> exact .ret _

theorem respond_only (st : AppState) (d : Draws) {req : Request} (h : req.Registers) :
    (respond st d req).Only (Stmt.Registers d) := by
  cases h with
  | home headers =>
      exact orInternalError_only (Prog.only_bind (currentSession_only _ d headers) fun _ => .ret _)
  | signInPage headers returnTo => exact .ret _
  | signUpPage headers returnTo => exact .ret _
  | appList headers path notice => exact orInternalError_only (Apps.listPage_own st d headers _ _).only
  | appNew headers path => exact orInternalError_only (Apps.newPage_own st d headers _).only
  | appCreate headers pairs => exact orInternalError_only (Apps.createPage_own st d headers _).only
  | appShow headers path clientId notice =>
      exact orInternalError_only (Apps.showPage_own st d headers _ _ _).only
  | appUpdate headers clientId pairs =>
      exact orInternalError_only (Apps.updatePage_own st d headers _ _).only
  | appRotateSecret headers clientId pairs =>
      exact orInternalError_only (Apps.rotateSecretPage_own st d headers _ _).only
  | appDelete headers clientId pairs =>
      exact orInternalError_only (Apps.deletePage_own st d headers _ _).only
  | createClient name redirectUris scopes isPublic => exact createClient_only st d _ _ _ _
  | addScope scope => exact addScope_only d scope

/-! ### Accounts -/

/-- The tables after the old session of the browser has ended. -/
def Db.retire (db : Db) (cr : Crates) (d : Draws) (headers : HeaderMap) : Db :=
  match CookieManager.get headers Session.sessionCookie with
  | some old => db.after (.sessionsRevokeByHash (cr.hashToken old) d.now)
  | none => db

section accounts

variable (st : AppState) (d : Draws) (headers : HeaderMap) (db : Db)

/-- What starting a session for `user` does. -/
inductive StartEffect (user : User) : Db → Prop where
  | unchanged : StartEffect user db
  | retired : StartEffect user (db.retire st.toCrates d headers)
  | started (h : (db.retire st.toCrates d headers).result
      (.sessionsInsert (Session.fresh st.toCrates d user)) = .ok ()) :
      StartEffect user ((db.retire st.toCrates d headers).after
        (.sessionsInsert (Session.fresh st.toCrates d user)))

/-- What the account pages do. -/
inductive AccountEffect : Request → Db → Prop where
  | unchanged (req : Request) : AccountEffect req db
  | logout (headers : HeaderMap) (csrfToken : Option String) :
      AccountEffect (.logout headers csrfToken) (db.retire st.toCrates d headers)
  | signIn (headers : HeaderMap) (form : SignInForm)
      (hcsrf : Csrf.verify headers form.csrfToken = true) (user : User) (hmem : user ∈ db.users)
      (hemail : Account.normalizeEmail st.toCrates form.email = some user.email)
      (hverified : st.verifyPassword form.password user.passwordHash = .ok true) (db' : Db)
      (h : StartEffect st d headers db user db') : AccountEffect (.signIn headers form) db'
  | signUp (headers : HeaderMap) (form : SignUpForm)
      (hcsrf : Csrf.verify headers form.csrfToken = true) (email passwordHash : String)
      (displayName : Option String)
      (hemail : Account.normalizeEmail st.toCrates form.email = some email)
      (hhash : st.hashPassword d.salt form.password = .ok passwordHash)
      (hinsert : db.result (.usersInsert (Account.newUser d email passwordHash displayName)) = .ok ())
      (db' : Db)
      (h : StartEffect st d headers
        (db.after (.usersInsert (Account.newUser d email passwordHash displayName)))
        (Account.newUser d email passwordHash displayName) db') :
      AccountEffect (.signUp headers form) db'

end accounts

/-! ### Cookies of a response -/

/-- A `Set-Cookie` header of the response is about the cookie `name`. -/
def Response.Sets (r : Response) (name : String) : Prop :=
  ∃ header ∈ r.setCookie, (splitOnce '=' header).map Prod.fst = some name

theorem splitOnce_append {sep : Char} {a b : String} (h : sep ∉ a.toList) :
    splitOnce sep (a ++ String.singleton sep ++ b) = some (a, b) := by
  have hne : ∀ c ∈ a.toList, (c != sep) = true := by
    intro c hc
    have hcsep : c ≠ sep := fun heq => h (heq ▸ hc)
    simpa using hcsep
  have hspan : (a ++ String.singleton sep ++ b).toList.span (· != sep) =
      (a.toList, sep :: b.toList) := by
    rw [String.toList_append, String.toList_append, String.toList_singleton, List.append_assoc,
      List.span_eq_takeWhile_dropWhile, List.takeWhile_append_of_pos hne,
      List.dropWhile_append_of_pos hne]
    simp
  rw [splitOnce, hspan]
  simp

/-- A header that sets a cookie is about that cookie. -/
theorem CookieManager.splitOnce_set {name value : String} (hname : '=' ∉ name.toList)
    (maxAge : Option Duration) (secure : Bool) :
    (splitOnce '=' (set name value maxAge secure)).map Prod.fst = some name := by
  obtain ⟨rest, hset⟩ : ∃ rest, set name value maxAge secure =
      name ++ String.singleton '=' ++ rest := by
    unfold set
    simp only [String.append_assoc]
    exact ⟨_, rfl⟩
  rw [hset, splitOnce_append hname]
  rfl

theorem withCsrfCookie_sets {r : Response} (hr : ¬r.Sets Session.sessionCookie) (headers : HeaderMap)
    (secure : Bool) (bytes : Vector UInt8 32) :
    ¬(withCsrfCookie r (Csrf.issue headers secure bytes)).Sets Session.sessionCookie := by
  rintro ⟨header, hmem, hname⟩
  rcases List.mem_append.1 hmem with hmem | hmem
  · exact hr ⟨header, hmem, hname⟩
  · rw [Csrf.issue] at hmem
    split at hmem
    · exact absurd hmem List.not_mem_nil
    · have hheader : header = CookieManager.set Csrf.csrfCookie (generateToken bytes) none secure := by
        simpa using hmem
      rw [hheader, CookieManager.splitOnce_set (by decide)] at hname
      exact absurd (Option.some.inj hname) (by decide)

/-- A page without cookies. -/
theorem render_sets (status : ℕ) (page : Page) (name : String) : ¬(render status page).Sets name := by
  rintro ⟨header, hmem, -⟩
  exact absurd hmem List.not_mem_nil

/-! ### Answers of the account pages -/

namespace Pages

/-- The response that starts a session. -/
def sessionStarted (st : AppState) (d : Draws) (returnTo : String) : Response :=
  { redirect returnTo with
    setCookie := [CookieManager.set Session.sessionCookie (generateToken (d.secret 0))
      (some Session.sessionTtl) st.secureCookies] }

/-- The response that ends one. -/
def sessionEnded (st : AppState) : Response :=
  { redirect "/" with setCookie := [CookieManager.clear Session.sessionCookie st.secureCookies] }

/-- Where a form sends the browser after a sign-in. -/
def target (returnTo : Option String) : String := safeReturnTo (returnTo.getD "/")

end Pages

section answers

variable (st : AppState) (d : Draws) (headers : HeaderMap) (flaky : Prop) (db : Db)

/-- What starting a session for `user` answers and does. -/
inductive StartAnswer (user : User) (returnTo : String) : Except AppError Response → Db → Prop where
  | failed (e : AppError) (db' : Db) (hdb : db' = db ∨ db' = db.retire st.toCrates d headers)
      (h : flaky ∨ ∃ e, (db.retire st.toCrates d headers).result
        (.sessionsInsert (Session.fresh st.toCrates d user)) = .error e) :
      StartAnswer user returnTo (.error e) db'
  | started (h : (db.retire st.toCrates d headers).result
      (.sessionsInsert (Session.fresh st.toCrates d user)) = .ok ()) :
      StartAnswer user returnTo (.ok (Pages.sessionStarted st d returnTo))
        ((db.retire st.toCrates d headers).after (.sessionsInsert (Session.fresh st.toCrates d user)))

/-- The response of a handler of a browser request. -/
def pageResponse : Except AppError Response → Response
  | .ok r => r
  | .error _ => internalError

/-- What the account pages answer and do. -/
inductive AccountAnswer : Request → Response → Db → Prop where
  | kept (req : Request) (r : Response) (h : ¬r.Sets Session.sessionCookie) : AccountAnswer req r db
  | logout (headers : HeaderMap) (csrfToken : Option String)
      (hcsrf : Csrf.verify headers csrfToken = true) :
      AccountAnswer (.logout headers csrfToken) (Pages.sessionEnded st)
        (db.retire st.toCrates d headers)
  | signIn (headers : HeaderMap) (form : SignInForm)
      (hcsrf : Csrf.verify headers form.csrfToken = true) (user : User) (hmem : user ∈ db.users)
      (hemail : Account.normalizeEmail st.toCrates form.email = some user.email)
      (hverified : st.verifyPassword form.password user.passwordHash = .ok true)
      (r : Except AppError Response) (db' : Db)
      (h : StartAnswer st d headers flaky db user (Pages.target form.returnTo) r db') :
      AccountAnswer (.signIn headers form) (pageResponse r) db'
  | signUp (headers : HeaderMap) (form : SignUpForm)
      (hcsrf : Csrf.verify headers form.csrfToken = true) (email passwordHash : String)
      (hemail : Account.normalizeEmail st.toCrates form.email = some email)
      (hhash : st.hashPassword d.salt form.password = .ok passwordHash) (user : User)
      (huser : user = Account.newUser d email passwordHash
        ((form.displayName.map trim).filter (· ≠ "")))
      (hinsert : db.result (.usersInsert user) = .ok ()) (r : Except AppError Response) (db' : Db)
      (h : StartAnswer st d headers flaky (db.after (.usersInsert user)) user
        (Pages.target form.returnTo) r db') :
      AccountAnswer (.signUp headers form) (pageResponse r) db'

end answers

section answers

variable {st : AppState} {d : Draws} {headers : HeaderMap} {flaky : Prop} {db db' : Db}

theorem StartAnswer.effect {user : User} {returnTo : String} {r : Except AppError Response}
    (h : StartAnswer st d headers flaky db user returnTo r db') :
    StartEffect st d headers db user db' := by
  cases h with
  | failed e db' hdb h =>
      rcases hdb with rfl | rfl
      · exact .unchanged
      · exact .retired
  | started h => exact .started h

theorem AccountAnswer.effect {req : Request} {r : Response}
    (h : AccountAnswer st d flaky db req r db') : AccountEffect st d db req db' := by
  cases h with
  | kept req r h => exact .unchanged req
  | logout headers csrfToken hcsrf => exact .logout headers csrfToken
  | signIn headers form hcsrf user hmem hemail hverified r db' h =>
      exact .signIn headers form hcsrf user hmem hemail hverified db' h.effect
  | signUp headers form hcsrf email passwordHash hemail hhash user huser hinsert r db' h =>
      subst huser
      exact .signUp headers form hcsrf email passwordHash _ hemail hhash hinsert db' h.effect

theorem startSession_wp {user : User} {returnTo : String} :
    (Pages.startSession st d headers user returnTo).wp flaky
      (fun r c => StartAnswer st d headers flaky db user returnTo r c.db) { db } := by
  have hcreate (db₁ : Db) (hdb₁ : db₁ = db.retire st.toCrates d headers)
      (f : String × Session → Service AppError Response)
      (hf : f (generateToken (d.secret 0), Session.fresh st.toCrates d user) =
        .ret (Pages.sessionStarted st d returnTo)) :
      ((Session.create st.toCrates d user).bind f).wp flaky
        (fun r c => StartAnswer st d headers flaky db user returnTo r c.db) ⟨db₁, none⟩ := by
    subst hdb₁
    simp only [Session.create, Prog.bind_eq, Prog.pure_eq, Prog.bind_assoc, Prog.ret_bind]
    rw [wp_query_auto]
    refine ⟨fun hflaky => .failed _ _ (.inr rfl) (.inl hflaky), fun _ h => ?_, fun e he => ?_⟩
    · rw [hf]
      exact .started h
    · have hafter := Db.after_of_error he
      rw [hafter]
      exact .failed _ _ (.inr rfl) (.inr ⟨e, he⟩)
  simp only [Pages.startSession, Prog.bind_eq, Prog.pure_eq]
  cases hcookie : CookieManager.get headers Session.sessionCookie with
  | none => exact hcreate db (by rw [Db.retire, hcookie]) _ rfl
  | some old =>
      dsimp only
      rw [Session.revoke, wp_query_auto]
      refine ⟨fun hflaky => .failed _ _ (.inl rfl) (.inl hflaky), fun _ _ => ?_, by rintro e ⟨⟩⟩
      exact hcreate _ (by rw [Db.retire, hcookie]) _ rfl

theorem findByRawEmail_wp {α : Type} {Q : Except AppError α → Conn Sharp → Prop} {email : String}
    {f : Option User → Service AppError α} (hflaky : ∀ e, flaky → Q (.error e) ⟨db, none⟩)
    (hnone : (f none).wp flaky Q ⟨db, none⟩)
    (hsome : ∀ user ∈ db.users, Account.normalizeEmail st.toCrates email = some user.email →
      (f (some user)).wp flaky Q ⟨db, none⟩) :
    ((Account.findByRawEmail st.toCrates email).bind f).wp flaky Q ⟨db, none⟩ := by
  rw [Account.findByRawEmail]
  cases hemail : Account.normalizeEmail st.toCrates email with
  | none => exact hnone
  | some email =>
      dsimp only
      rw [wp_query_auto]
      refine ⟨hflaky _, fun found hfound => ?_, by rintro e ⟨⟩⟩
      rw [db.after_of_reads rfl]
      have hfound : db.users.find? (fun u => u.email = email) = found := Except.ok.inj hfound
      cases found with
      | none => exact hnone
      | some user =>
          have huser : user.email = email := by simpa using List.find?_some hfound
          exact hsome user (List.mem_of_find?_eq_some hfound) (by rw [hemail, huser])

/-- A page that sets no session cookie, and nothing else. -/
theorem keepsSession (req : Request) {r : Response} (h : ¬r.Sets Session.sessionCookie) :
    AccountAnswer st d flaky db req r db := .kept req r h

theorem internalError_sets (name : String) : ¬internalError.Sets name := render_sets _ _ name

theorem csrfFailure_sets (name : String) : ¬csrfFailure.Sets name := render_sets _ _ name

theorem signIn_wp {form : SignInForm} : (Pages.signIn st d headers form).wp flaky
    (fun r c => AccountAnswer st d flaky db (.signIn headers form) (pageResponse r) c.db) { db } := by
  have herror (e : AppError) : AccountAnswer st d flaky db (.signIn headers form)
      (pageResponse (.error e)) db := keepsSession _ (internalError_sets _)
  simp only [Pages.signIn, Prog.bind_eq, Prog.pure_eq]
  split_ifs with hcsrf
  · exact keepsSession _ (csrfFailure_sets _)
  · have hcsrf : Csrf.verify headers form.csrfToken = true := by simpa using hcsrf
    have hrefused : AccountAnswer st d flaky db (.signIn headers form) (withCsrfCookie (render 401
        (.signIn (Csrf.issue headers st.secureCookies (d.secret 2)).value
          (some (Pages.target form.returnTo)) form.email (some "Invalid email or password.")))
        (Csrf.issue headers st.secureCookies (d.secret 2))) db :=
      keepsSession _ (withCsrfCookie_sets (render_sets _ _ _) _ _ _)
    simp only [Account.authenticate, Prog.bind_eq, Prog.pure_eq, Prog.bind_assoc]
    refine findByRawEmail_wp (fun e _ => herror e) ?_ fun user hmem hemail => ?_
    · rw [Prog.wp_ofExcept]
      exact ⟨fun _ _ => hrefused, fun e _ => herror _⟩
    · rw [Prog.wp_ofExcept]
      refine ⟨fun passwordOk hverified => ?_, fun e _ => herror _⟩
      rw [Prog.ret_bind]
      cases passwordOk with
      | false => exact hrefused
      | true =>
          rw [mapError_eq_ok] at hverified
          exact Prog.wp_mono
            (fun r c h => .signIn headers form hcsrf user hmem hemail hverified r c.db h) _ _
            startSession_wp

/-- Creating an account fails, or stores its row. -/
theorem createAccount_wp {Q : Except Account.SignUpError User → Conn Sharp → Prop}
    {account : Account.NewAccount} (herror : ∀ e, Q (.error e) ⟨db, none⟩)
    (hok : ∀ email passwordHash user, Account.normalizeEmail st.toCrates account.email = some email →
      st.hashPassword d.salt account.password = .ok passwordHash →
      user = Account.newUser d email passwordHash ((account.displayName.map trim).filter (· ≠ "")) →
      db.result (.usersInsert user) = .ok () → Q (.ok user) ⟨db.after (.usersInsert user), none⟩) :
    (Account.signUp st.toCrates d account).wp flaky Q ⟨db, none⟩ := by
  simp only [Account.signUp, Prog.bind_eq, Prog.pure_eq, Prog.wp_okOr]
  refine ⟨fun email hemail => ?_, fun _ => herror _⟩
  split_ifs
  · exact herror _
  · exact herror _
  · rw [Prog.wp_ofExcept]
    refine ⟨fun passwordHash hhash => ?_, fun e _ => herror _⟩
    rw [mapError_eq_ok] at hhash
    rw [Prog.wp_attempt_bind, ← Prog.bind_ret (query _), wp_query_auto]
    refine ⟨fun _ => herror _, fun _ hinsert => hok _ _ _ hemail hhash rfl hinsert, fun e he => ?_⟩
    have hafter := Db.after_of_error he
    rw [hafter]
    cases e <;> exact herror _

theorem signUp_wp {form : SignUpForm} : (Pages.signUp st d headers form).wp flaky
    (fun r c => AccountAnswer st d flaky db (.signUp headers form) (pageResponse r) c.db) { db } := by
  simp only [Pages.signUp, Prog.bind_eq, Prog.pure_eq]
  split_ifs with hcsrf
  · exact keepsSession _ (csrfFailure_sets _)
  · have hcsrf : Csrf.verify headers form.csrfToken = true := by simpa using hcsrf
    rw [Prog.wp_attempt_bind]
    refine createAccount_wp (fun e => ?_)
      fun email passwordHash user hemail hhash huser hinsert => ?_
    · cases e with
      | internal e => exact keepsSession _ (internalError_sets _)
      | _ => exact keepsSession _ (withCsrfCookie_sets (render_sets _ _ _) _ _ _)
    · exact Prog.wp_mono (fun r c h => .signUp headers form hcsrf email passwordHash hemail hhash user
        huser hinsert r c.db h) _ _ startSession_wp

theorem logout_wp {csrfToken : Option String} : (Pages.logout st d headers csrfToken).wp flaky
    (fun r c => AccountAnswer st d flaky db (.logout headers csrfToken) (pageResponse r) c.db)
      { db } := by
  simp only [Pages.logout, Prog.bind_eq, Prog.pure_eq]
  split_ifs with hcsrf
  · exact keepsSession _ (csrfFailure_sets _)
  · have hlogout : AccountAnswer st d flaky db _ _ _ :=
      .logout headers csrfToken (by simpa using hcsrf)
    rw [Db.retire] at hlogout
    cases hcookie : CookieManager.get headers Session.sessionCookie with
    | none =>
        rw [hcookie] at hlogout
        exact hlogout
    | some token =>
        rw [hcookie] at hlogout
        dsimp only
        rw [Session.revoke, wp_query_auto]
        exact ⟨fun _ => keepsSession _ (internalError_sets _), fun _ _ => hlogout, by rintro e ⟨⟩⟩

end answers

/-! ### Frames

The tables that a request leaves alone. -/

section frames

variable {st : AppState} {d : Draws} {db db' : Db} {t : Table}

theorem AuthorizeEffect.frame {headers : HeaderMap} {pairs : List (String × String)} {r : Response}
    (h : AuthorizeEffect st d headers pairs db r db') (ht : t ≠ .codes) : db' t = db t := by
  cases h with
  | issued => exact db.after_of_writes (by simp [Stmt.writes, ht])
  | _ => rfl

theorem ConsentEffect.frame {headers : HeaderMap} {pairs : List (String × String)} {r : Response}
    (h : ConsentEffect st d headers pairs db r db') (hcodes : t ≠ .codes) (hconsents : t ≠ .consents) :
    db' t = db t := by
  have hgrant (userId clientId : Uuid) (scopes : ScopeSet) :
      db.after (db.grantStatement userId clientId d scopes) t = db t :=
    db.after_of_writes (by simp [Db.grantStatement, Stmt.writes, hconsents])
  cases h with
  | grantedOnly => exact hgrant _ _ _
  | issued => exact (Db.after_of_writes _ (by simp [Stmt.writes, hcodes])).trans (hgrant _ _ _)
  | _ => rfl

theorem Token.CodeEffect.frame {client : OAuthClient} {params : Params} {flaky : Prop}
    {r : Except AppError Token.TokenResponse} (h : CodeEffect st d client params flaky db r db')
    (hcodes : t ≠ .codes) (htokens : t ≠ .refreshTokens) : db' t = db t := by
  have hclaim (codeHash : String) : db.after (.codesClaim codeHash d.now) t = db t :=
    db.after_of_writes (by simp [Stmt.writes, hcodes])
  cases h with
  | replayed => exact db.after_of_writes (by simp [Stmt.writes, htokens])
  | rejected => exact hclaim _
  | redeemed => exact hclaim _
  | redeemedOffline =>
      exact (Db.after_of_writes _ (by simp [Stmt.writes, htokens])).trans (hclaim _)
  | _ => rfl

theorem Token.RefreshEffect.frame {client : OAuthClient} {params : Params} {flaky : Prop}
    {r : Except AppError Token.TokenResponse} (h : RefreshEffect st d client params flaky db r db')
    (htokens : t ≠ .refreshTokens) : db' t = db t := by
  cases h with
  | replayed => exact db.after_of_writes (by simp [Stmt.writes, htokens])
  | refreshed =>
      exact (Db.after_of_writes _ (by simp [Stmt.writes, htokens])).trans
        (db.after_of_writes (by simp [Stmt.writes, htokens]))
  | _ => rfl

theorem TokenEffect.frame {header : Option String} {pairs : List (String × String)} {flaky : Prop}
    {r : Except AppError Token.TokenResponse} (h : TokenEffect st d header pairs flaky db r db')
    (hcodes : t ≠ .codes) (htokens : t ≠ .refreshTokens) : db' t = db t := by
  cases h with
  | code params client hl hg r db' h => exact h.frame hcodes htokens
  | refresh params client hl hg r db' h => exact h.frame htokens
  | _ => rfl

theorem RevokeEffect.frame {header : Option String} {pairs : List (String × String)} {flaky : Prop}
    {r : Except AppError Unit} (h : RevokeEffect st d header pairs flaky db r db')
    (htokens : t ≠ .refreshTokens) : db' t = db t := by
  cases h with
  | revoked => exact db.after_of_writes (by simp [Stmt.writes, htokens])
  | _ => rfl

theorem AccountEffect.frame {req : Request} (h : AccountEffect st d db req db') {t : Table}
    (husers : t ≠ .users) (hsessions : t ≠ .sessions) : db' t = db t := by
  have hretire (db : Db) (headers : HeaderMap) : db.retire st.toCrates d headers t = db t := by
    rw [Db.retire]
    cases CookieManager.get headers Session.sessionCookie with
    | some old => exact db.after_of_writes (by simp [Stmt.writes, hsessions])
    | none => rfl
  have hstart (db db' : Db) (headers : HeaderMap) (user : User)
      (h : StartEffect st d headers db user db') : db' t = db t := by
    cases h with
    | unchanged => rfl
    | retired => exact hretire db headers
    | started h =>
        exact (Db.after_of_writes _ (by simp [Stmt.writes, hsessions])).trans (hretire db headers)
  cases h with
  | unchanged => rfl
  | logout headers csrfToken => exact hretire db headers
  | signIn headers form hcsrf user hmem hemail hverified db' h => exact hstart _ _ headers user h
  | signUp headers form hcsrf email passwordHash displayName hemail hhash hinsert db' h =>
      refine (hstart _ _ headers _ h).trans ?_
      exact db.after_of_writes (by simp [Stmt.writes, husers])

end frames

/-! ### Every request -/

/-- What a request answers and does. -/
inductive Effect (st : AppState) (d : Draws) (flaky : Prop) (db : Db) :
    Request → Response → Db → Prop where
  | authorize (headers : HeaderMap) (pairs : List (String × String)) (r : Response) (db' : Db)
      (h : AuthorizeEffect st d headers pairs db r db') :
      Effect st d flaky db (.authorize headers pairs) r db'
  | consent (headers : HeaderMap) (pairs : List (String × String)) (r : Response) (db' : Db)
      (h : ConsentEffect st d headers pairs db r db') :
      Effect st d flaky db (.consent headers pairs) r db'
  | token (headers : HeaderMap) (pairs : List (String × String))
      (r : Except AppError Token.TokenResponse) (db' : Db)
      (h : TokenEffect st d (authorizationHeader headers) pairs flaky db r db') :
      Effect st d flaky db (.token headers (some pairs)) (tokenResponse r) db'
  | revoke (headers : HeaderMap) (pairs : List (String × String)) (r : Except AppError Unit)
      (db' : Db) (h : RevokeEffect st d (authorizationHeader headers) pairs flaky db r db') :
      Effect st d flaky db (.revoke headers (some pairs)) (revokeResponse r) db'
  | notAForm (headers : HeaderMap) (req : Request)
      (h : req = .token headers none ∨ req = .revoke headers none) :
      Effect st d flaky db req notAForm.intoResponse db
  | account (req : Request) (r : Response) (db' : Db) (h : AccountEffect st d db req db') :
      Effect st d flaky db req r db'
  | registry (req : Request) (hreq : req.Registers) (r : Response) (db' : Db)
      (h : Registry d db db') : Effect st d flaky db req r db'

theorem serve_account {st : AppState} {d : Draws} {db : Db} {faults : List Bool} {req : Request}
    {p : Service AppError Response} (hreq : respond st d req = orInternalError p)
    (h : p.wp (true ∈ faults)
      (fun r c => AccountAnswer st d (true ∈ faults) db req (pageResponse r) c.db) { db }) :
    AccountAnswer st d (true ∈ faults) db req (serve st d faults req db).1
      (serve st d faults req db).2 := by
  refine Prog.wp_serve (S := Sharp) (R := fun r db' =>
    AccountAnswer st d (true ∈ faults) db req (Prog.value r) db') _ faults db ?_
  rw [hreq]
  show (Prog.bind p.attempt _).wp _ _ _
  rw [Prog.wp_attempt_bind]
  exact Prog.wp_mono (fun r c h => by cases r <;> exact h) _ _ h

/-- **All that a request can do.** -/
theorem serve_effect (st : AppState) (d : Draws) (faults : List Bool) (req : Request) (db : Db) :
    Effect st d (true ∈ faults) db req (serve st d faults req db).1 (serve st d faults req db).2 := by
  have hregistry (h : req.Registers) : Effect st d (true ∈ faults) db req
      (serve st d faults req db).1 (serve st d faults req db).2 :=
    .registry req h _ _ (Registry.ofOnly (respond_only st d h) faults db)
  cases req with
  | authorize headers pairs => exact .authorize headers pairs _ _ (serve_authorize st d headers pairs faults db)
  | consent headers pairs => exact .consent headers pairs _ _ (serve_consent st d headers pairs faults db)
  | token headers form =>
      cases form with
      | none => exact .notAForm headers _ (.inl rfl)
      | some pairs =>
          obtain ⟨r, hr, h⟩ := serve_token st d headers pairs faults db
          rw [hr]
          exact .token headers pairs r _ h
  | revoke headers form =>
      cases form with
      | none => exact .notAForm headers _ (.inr rfl)
      | some pairs =>
          obtain ⟨r, hr, h⟩ := serve_revoke st d headers pairs faults db
          rw [hr]
          exact .revoke headers pairs r _ h
  | signIn headers form => exact .account _ _ _ (serve_account rfl signIn_wp).effect
  | signUp headers form => exact .account _ _ _ (serve_account rfl signUp_wp).effect
  | logout headers csrfToken => exact .account _ _ _ (serve_account rfl logout_wp).effect
  | home headers => exact hregistry (.home headers)
  | signInPage headers returnTo => exact hregistry (.signInPage headers returnTo)
  | signUpPage headers returnTo => exact hregistry (.signUpPage headers returnTo)
  | appList headers path notice => exact hregistry (.appList headers path notice)
  | appNew headers path => exact hregistry (.appNew headers path)
  | appCreate headers pairs => exact hregistry (.appCreate headers pairs)
  | appShow headers path clientId notice => exact hregistry (.appShow headers path clientId notice)
  | appUpdate headers clientId pairs => exact hregistry (.appUpdate headers clientId pairs)
  | appRotateSecret headers clientId pairs => exact hregistry (.appRotateSecret headers clientId pairs)
  | appDelete headers clientId pairs => exact hregistry (.appDelete headers clientId pairs)
  | createClient name redirectUris scopes isPublic =>
      exact hregistry (.createClient name redirectUris scopes isPublic)
  | addScope scope => exact hregistry (.addScope scope)

end SharpOauth
