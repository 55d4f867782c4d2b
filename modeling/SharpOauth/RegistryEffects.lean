import SharpOauth.History

/-! # What the portal, the command line and the migrations do to the registries

`RegistryEffect` refines `Registry`: it names the one statement that a request of the developer
portal, a registration on the command line or a migration carries out, with everything the
request has checked before it: who is signed in, who owns the application, that the form's
CSRF token is right, and that the details were accepted (`Accepted`).

A page is rendered after the write and only reads; `wp_reads` disposes of it. -/

namespace SharpOauth

open Client

/-! ### Programs that only read -/

/-- The statement changes nothing. -/
abbrev Stmt.Reads (q : Stmt) : Prop := q.writes = []

/-- A program that only reads leaves the tables alone. -/
theorem wp_reads {ε α : Type} {flaky : Prop} {P : Db → Prop} {db : Db} {p : Service ε α}
    (hp : p.Only Stmt.Reads) (hdb : P db) : p.wp flaky (fun _ c => P c.db) ⟨db, none⟩ := by
  have hinv : ∀ c : Conn Sharp, c.db = db → c.view = db → p.wp flaky (fun _ c => P c.db) c := by
    induction hp with
    | ret a =>
        intro c hc _
        rw [Prog.wp_ret, hc]
        exact hdb
    | fail e =>
        intro c hc _
        rw [Prog.wp_fail, hc]
        exact hdb
    | call o k ho hk ih =>
        intro c hc hview
        have hanswer (fault : Bool) : (c.answer fault o).2.db = db ∧ (c.answer fault o).2.view = db := by
          obtain ⟨s, tx⟩ := c
          subst hc
          cases fault with
          | true => cases o <;> exact ⟨rfl, hview⟩
          | false =>
              cases o with
              | begin => exact ⟨rfl, rfl⟩
              | commit => exact ⟨hview, hview⟩
              | sql q =>
                  have hread : ((sem q).exec clash s).2 = s := Db.after_of_reads s (ho q rfl)
                  cases tx with
                  | none => exact ⟨hread, hread⟩
                  | some s' =>
                      obtain rfl : s' = s := hview
                      exact ⟨rfl, hread⟩
        exact ⟨fun _ => ih _ _ (hanswer true).1 (hanswer true).2, ih _ _ (hanswer false).1 (hanswer false).2⟩
  exact hinv _ rfl rfl

/-- A program that refuses some inputs first. -/
theorem wp_refuse {ε α β : Type} {flaky : Prop} {Q : Except ε β → Conn Sharp → Prop} {c : Conn Sharp}
    {b : Prop} [Decidable b] {e : ε} {p : Service ε α} {f : α → Service ε β} :
    ((if b then .fail e else p).bind f).wp flaky Q c ↔
      (b → Q (.error e) c) ∧ (¬b → (p.bind f).wp flaky Q c) := by
  by_cases hb : b
  · rw [if_pos hb]
    exact ⟨fun h => ⟨fun _ => h, fun hnot => absurd hb hnot⟩, fun h => h.1 hb⟩
  · rw [if_neg hb]
    exact ⟨fun h => ⟨fun hb' => absurd hb' hb, fun _ => h⟩, fun h => h.2 hb⟩

section reads

variable (st : AppState) (d : Draws) (headers : HeaderMap)

theorem newAppForm_reads (status : ℕ) (form : AppForm) (error : Option String) :
    (Apps.newAppForm st d headers status form error).Only Stmt.Reads :=
  Prog.only_bind (Prog.only_query (S := Sharp) (by rfl)) fun _ => .ret _

theorem appPage_reads (status : ℕ) (app : OAuthClient) (form : AppForm)
    (messages : DeveloperAppMessages) :
    (Apps.appPage st d headers status app form messages).Only Stmt.Reads :=
  Prog.only_bind (Prog.only_query (S := Sharp) (by rfl)) fun _ => .ret _

end reads

/-! ### Registration -/

namespace Client

/-- The details of a client, checked and normalised against the scope registry. -/
structure Accepted (cr : Crates) (db : Db) (raw details : ClientDetails) : Prop where
  name : details.name = trim raw.name
  nonempty : details.name ≠ ""
  short : details.name.toList.length ≤ maxNameLen
  redirectUris : details.redirectUris = dedupe raw.redirectUris
  some : details.redirectUris ≠ []
  few : details.redirectUris.length ≤ maxRedirectUris
  valid : validateRedirectUris cr details.redirectUris = .ok ()
  scopes : details.scopes = raw.scopes
  requested : details.scopes.toList ≠ []
  known : ∀ x ∈ details.scopes, ∃ s ∈ db.scopes, s.name = x

/-- The row of a new client. -/
def newRow (cr : Crates) (d : Draws) (new : NewClient) (details : ClientDetails) : OAuthClient where
  id := d.uuid 0
  clientId := newClientId (d.secret 0)
  clientSecretHash :=
    (if new.confidential then some (newClientSecret (d.secret 1)) else none).map cr.hashToken
  name := details.name
  redirectUris := details.redirectUris
  allowedScopes := details.scopes.toList
  createdAt := d.now
  updatedAt := d.now
  disabledAt := none
  ownerUserId := new.ownerUserId

section services

-- `trim` is not to be unfolded when the checks are taken apart.
attribute [local irreducible] trim

variable {cr : Crates} {d : Draws} {flaky : Prop} {db : Db}

theorem validateDetails_wp {α : Type} {Q : Except RegistrationError α → Conn Sharp → Prop}
    {raw : ClientDetails} {f : ClientDetails → Service RegistrationError α}
    (herror : ∀ e, Q (.error e) ⟨db, none⟩)
    (hok : ∀ details, Accepted cr db raw details → (f details).wp flaky Q ⟨db, none⟩) :
    ((validateDetails cr raw).bind f).wp flaky Q ⟨db, none⟩ := by
  simp only [validateDetails, Prog.bind_eq, Prog.pure_eq]
  rw [wp_refuse]
  refine ⟨fun _ => herror _, fun hempty => ?_⟩
  rw [wp_refuse]
  refine ⟨fun _ => herror _, fun hlong => ?_⟩
  rw [wp_refuse]
  refine ⟨fun _ => herror _, fun hnone => ?_⟩
  rw [wp_refuse]
  refine ⟨fun _ => herror _, fun hmany => ?_⟩
  rw [Prog.bind_assoc, Prog.wp_ofExcept]
  refine ⟨fun _ hvalid => ?_, fun e _ => herror _⟩
  rw [wp_refuse]
  refine ⟨fun _ => herror _, fun hscopes => ?_⟩
  rw [Prog.bind_assoc, wp_query_auto]
  refine ⟨fun _ => herror _, fun known hknown => ?_, by rintro e ⟨⟩⟩
  rw [db.after_of_reads rfl, wp_refuse]
  refine ⟨fun _ => herror _, fun hunknown => ?_⟩
  refine hok _
    { name := rfl
      nonempty := hempty
      short := not_lt.1 hlong
      redirectUris := rfl
      some := hnone
      few := not_lt.1 hmany
      valid := hvalid
      scopes := rfl
      requested := hscopes
      known := fun x hx => ?_ }
  have hnone := List.filter_eq_nil_iff.1 (not_not.1 hunknown) x hx
  obtain rfl := Except.ok.inj hknown
  simp only [Bool.not_eq_true, Bool.not_eq_false', List.any_eq_true, beq_iff_eq] at hnone
  obtain ⟨s, hs, hname⟩ := hnone
  have hmem : s ∈ db.scopes := (List.mem_filter.1 ((List.perm_insertionSort _ _).mem_iff.1 hs)).1
  exact ⟨s, hmem, hname⟩

/-- Registering a client fails, or stores its row. -/
theorem register_wp {Q : Except RegistrationError RegisteredClient → Conn Sharp → Prop}
    {new : NewClient} (herror : ∀ e, Q (.error e) ⟨db, none⟩)
    (hok : ∀ details, Accepted cr db ⟨new.name, new.redirectUris, new.scopes⟩ details →
      db.result (.clientsInsert (newRow cr d new details)) = .ok () →
      Q (.ok ⟨newRow cr d new details,
          if new.confidential then some (newClientSecret (d.secret 1)) else none⟩)
        ⟨db.after (.clientsInsert (newRow cr d new details)), none⟩) :
    (register cr d new).wp flaky Q ⟨db, none⟩ := by
  rw [register, Prog.bind_eq]
  refine validateDetails_wp herror fun details hdetails => ?_
  simp only [Prog.bind_eq, Prog.pure_eq]
  rw [wp_query_auto]
  refine ⟨fun _ => herror _, fun _ h => hok details hdetails h, fun e he => ?_⟩
  rw [Db.after_of_error he]
  exact herror _

/-- Changing the details of a client fails, or stores them. -/
theorem updateDetails_wp {Q : Except RegistrationError Unit → Conn Sharp → Prop}
    {client : OAuthClient} {raw : ClientDetails} (herror : ∀ e, Q (.error e) ⟨db, none⟩)
    (hok : ∀ details, Accepted cr db raw details → Q (.ok ()) ⟨db.after (.clientsUpdateDetails
      client.id details.name details.redirectUris details.scopes.toList d.now), none⟩) :
    (updateDetails cr d client raw).wp flaky Q ⟨db, none⟩ := by
  rw [updateDetails, Prog.bind_eq]
  refine validateDetails_wp herror fun details hdetails => ?_
  rw [← Prog.bind_ret (query _), wp_query_auto]
  exact ⟨fun _ => herror _, fun _ _ => hok details hdetails, by rintro e ⟨⟩⟩

/-- A new secret is stored for confidential clients only. -/
theorem rotateSecret_wp {Q : Except SqlError (Option String) → Conn Sharp → Prop}
    {client : OAuthClient} (herror : ∀ e, Q (.error e) ⟨db, none⟩)
    (hpublic : client.isConfidential = false → Q (.ok none) ⟨db, none⟩)
    (hok : client.isConfidential = true → Q (.ok (some (newClientSecret (d.secret 1))))
      ⟨db.after (.clientsUpdateSecretHash client.id (cr.hashToken (newClientSecret (d.secret 1))) d.now),
        none⟩) :
    (rotateSecret cr d client).wp flaky Q ⟨db, none⟩ := by
  simp only [rotateSecret, Prog.bind_eq, Prog.pure_eq]
  split_ifs with hconfidential
  · exact hpublic (by simpa using hconfidential)
  · rw [wp_query_auto]
    exact ⟨fun _ => herror _, fun _ _ => hok (by simpa using hconfidential), by rintro e ⟨⟩⟩

end services

end Client

/-! ### The requests -/

/-- The application `clientId` of `user`. -/
structure Owned (db : Db) (user : User) (clientId : String) (app : OAuthClient) : Prop where
  mem : app ∈ db.clients
  clientId : app.clientId = clientId
  owner : app.ownerUserId = some user.id

section effects

variable (st : AppState) (d : Draws) (db : Db)

/-- Who registers a client, and as what. -/
inductive Registration : Request → NewClient → Prop where
  | commandLine (name : String) (redirectUris : List String) (raw : String) (isPublic : Bool)
      (scopes : ScopeSet) (hscopes : ScopeSet.parse raw = .ok scopes) :
      Registration (.createClient name redirectUris raw isPublic)
        ⟨name, redirectUris, scopes, !isPublic, none⟩
  | portal (headers : HeaderMap) (pairs : List (String × String)) (session : Session) (user : User)
      (hs : SignedIn st.toCrates d headers db session user)
      (hcsrf : Csrf.verify headers (AppForm.fromPairs pairs).csrfToken = true)
      (hcount : db.clients.countP (fun c => c.ownerUserId = some user.id) < Apps.maxAppsPerUser) :
      Registration (.appCreate headers pairs)
        ⟨(AppForm.fromPairs pairs).name, (AppForm.fromPairs pairs).redirectUriList,
          (AppForm.fromPairs pairs).scopeSet, !(AppForm.fromPairs pairs).isPublic, some user.id⟩

/-- A signed-in user sends a form about an application of theirs. -/
structure Manages (headers : HeaderMap) (clientId : String) (pairs : List (String × String))
    (session : Session) (user : User) (app : OAuthClient) : Prop where
  signedIn : SignedIn st.toCrates d headers db session user
  owned : Owned db user clientId app
  csrf : Csrf.verify headers (AppForm.fromPairs pairs).csrfToken = true

/-- What these requests do. -/
inductive RegistryEffect : Request → Db → Prop where
  | unchanged (req : Request) : RegistryEffect req db
  | scopeAdded (scope : ScopeDescription) :
      RegistryEffect (.addScope scope) (db.after (.scopesInsert scope))
  | registered (req : Request) (new : NewClient) (hnew : Registration st d db req new)
      (details : ClientDetails)
      (hdetails : Accepted st.toCrates db ⟨new.name, new.redirectUris, new.scopes⟩ details)
      (hinsert : db.result (.clientsInsert (newRow st.toCrates d new details)) = .ok ()) :
      RegistryEffect req (db.after (.clientsInsert (newRow st.toCrates d new details)))
  | updated (headers : HeaderMap) (clientId : String) (pairs : List (String × String))
      (session : Session) (user : User) (app : OAuthClient)
      (hm : Manages st d db headers clientId pairs session user app) (raw details : ClientDetails)
      (hdetails : Accepted st.toCrates db raw details) :
      RegistryEffect (.appUpdate headers clientId pairs) (db.after (.clientsUpdateDetails app.id
        details.name details.redirectUris details.scopes.toList d.now))
  | rotated (headers : HeaderMap) (clientId : String) (pairs : List (String × String))
      (session : Session) (user : User) (app : OAuthClient)
      (hm : Manages st d db headers clientId pairs session user app)
      (hconfidential : app.isConfidential = true) :
      RegistryEffect (.appRotateSecret headers clientId pairs) (db.after (.clientsUpdateSecretHash
        app.id (st.hashToken (newClientSecret (d.secret 1))) d.now))
  | deleted (headers : HeaderMap) (clientId : String) (pairs : List (String × String))
      (session : Session) (user : User) (app : OAuthClient)
      (hm : Manages st d db headers clientId pairs session user app) :
      RegistryEffect (.appDelete headers clientId pairs) (db.after (.clientsDelete app.id))

end effects

section pages

attribute [local irreducible] trim

variable {st : AppState} {d : Draws} {headers : HeaderMap} {flaky : Prop} {db : Db}

theorem signedInUser_wp {P : Db → Prop} (hdb : P db) {returnTo : String}
    {handler : User → Service AppError Response}
    (h : ∀ session user, SignedIn st.toCrates d headers db session user →
      (handler user).wp flaky (fun _ c => P c.db) ⟨db, none⟩) :
    (Apps.signedInUser st d headers returnTo handler).wp flaky (fun _ c => P c.db) ⟨db, none⟩ := by
  rw [Apps.signedInUser, Prog.bind_eq]
  refine wp_currentSession (fun _ _ => hdb) fun signedIn hs => ?_
  cases signedIn with
  | none => exact hdb
  | some s => exact h s.1 s.2 (hs s rfl)

theorem ownedApp_wp {P : Db → Prop} (hdb : P db) {user : User} {clientId : String}
    {handler : OAuthClient → Service AppError Response}
    (h : ∀ app, Owned db user clientId app →
      (handler app).wp flaky (fun _ c => P c.db) ⟨db, none⟩) :
    (Apps.ownedApp user clientId handler).wp flaky (fun _ c => P c.db) ⟨db, none⟩ := by
  rw [Apps.ownedApp, Prog.bind_eq, wp_query_auto]
  refine ⟨fun _ => hdb, fun found hfound => ?_, by rintro e ⟨⟩⟩
  rw [db.after_of_reads rfl]
  have hfound : db.clients.find? (fun c => c.clientId = clientId ∧ c.ownerUserId = some user.id) =
    found := Except.ok.inj hfound
  cases found with
  | none => exact hdb
  | some app =>
      have hp := List.find?_some hfound
      simp only [decide_eq_true_eq] at hp
      exact h app ⟨List.mem_of_find?_eq_some hfound, hp.1, hp.2⟩

theorem createPage_wp {pairs : List (String × String)} :
    (Apps.createPage st d headers pairs).wp flaky
      (fun _ c => RegistryEffect st d db (.appCreate headers pairs) c.db) ⟨db, none⟩ := by
  refine signedInUser_wp (.unchanged _) fun session user hs => ?_
  simp only [Prog.bind_eq, Prog.pure_eq]
  split_ifs with hcsrf
  · exact .unchanged _
  rw [Prog.wp_attempt_bind, Apps.create, Prog.bind_eq, wp_query_auto]
  refine ⟨fun _ => .unchanged _, fun count hcount => ?_, by rintro e ⟨⟩⟩
  rw [db.after_of_reads rfl]
  have hcount : db.clients.countP (fun c => c.ownerUserId = some user.id) = count :=
    Except.ok.inj hcount
  split_ifs with hlimit
  · exact wp_reads (newAppForm_reads st d headers _ _ _) (.unchanged _)
  rw [Prog.wp_lift]
  refine register_wp (fun e => ?_) fun details hdetails hinsert => ?_
  · cases e <;> first
      | exact .unchanged _
      | exact wp_reads (newAppForm_reads st d headers _ _ _) (.unchanged _)
  · refine wp_reads (appPage_reads st d headers _ _ _ _) (.registered _ _ ?_ details hdetails hinsert)
    exact .portal headers pairs session user hs (by simpa using hcsrf) (hcount ▸ not_le.1 hlimit)

theorem updatePage_wp {clientId : String} {pairs : List (String × String)} :
    (Apps.updatePage st d headers clientId pairs).wp flaky
      (fun _ c => RegistryEffect st d db (.appUpdate headers clientId pairs) c.db) ⟨db, none⟩ := by
  refine signedInUser_wp (.unchanged _) fun session user hs => ?_
  refine ownedApp_wp (.unchanged _) fun app happ => ?_
  simp only [Prog.bind_eq, Prog.pure_eq]
  split_ifs with hcsrf
  · exact .unchanged _
  rw [Prog.wp_attempt_bind, Apps.update, Prog.wp_lift]
  refine updateDetails_wp (fun e => ?_) fun details hdetails => ?_
  · cases e <;> first
      | exact .unchanged _
      | exact wp_reads (appPage_reads st d headers _ _ _ _) (.unchanged _)
  · exact .updated headers clientId pairs session user app ⟨hs, happ, by simpa using hcsrf⟩ _ _ hdetails

theorem rotateSecretPage_wp {clientId : String} {pairs : List (String × String)} :
    (Apps.rotateSecretPage st d headers clientId pairs).wp flaky
      (fun _ c => RegistryEffect st d db (.appRotateSecret headers clientId pairs) c.db)
      ⟨db, none⟩ := by
  refine signedInUser_wp (.unchanged _) fun session user hs => ?_
  refine ownedApp_wp (.unchanged _) fun app happ => ?_
  simp only [Prog.bind_eq, Prog.pure_eq]
  split_ifs with hcsrf
  · exact .unchanged _
  rw [Prog.wp_lift_bind]
  refine rotateSecret_wp (fun e => .unchanged _) (fun _ => .unchanged _) fun hconfidential => ?_
  refine wp_reads (appPage_reads st d headers _ _ _ _) ?_
  exact .rotated headers clientId pairs session user app ⟨hs, happ, by simpa using hcsrf⟩ hconfidential

theorem deletePage_wp {clientId : String} {pairs : List (String × String)} :
    (Apps.deletePage st d headers clientId pairs).wp flaky
      (fun _ c => RegistryEffect st d db (.appDelete headers clientId pairs) c.db) ⟨db, none⟩ := by
  refine signedInUser_wp (.unchanged _) fun session user hs => ?_
  refine ownedApp_wp (.unchanged _) fun app happ => ?_
  simp only [Prog.bind_eq, Prog.pure_eq]
  have hdeleted (hcsrf : Csrf.verify headers (AppForm.fromPairs pairs).csrfToken = true) :
      RegistryEffect st d db (.appDelete headers clientId pairs) (db.after (.clientsDelete app.id)) :=
    .deleted headers clientId pairs session user app ⟨hs, happ, hcsrf⟩
  split_ifs with hcsrf hconfirm
  · exact .unchanged _
  · exact wp_reads (appPage_reads st d headers _ _ _ _) (.unchanged _)
  · have hcsrf := hdeleted (by simpa using hcsrf)
    rw [Prog.wp_lift_bind, Client.delete, ← Prog.bind_ret (query _), wp_query_auto]
    exact ⟨fun _ => .unchanged _, fun _ _ => hcsrf, fun e he => hcsrf⟩

theorem createClient_wp {name : String} {redirectUris : List String} {scopes : String}
    {isPublic : Bool} : (createClient st d name redirectUris scopes isPublic).wp flaky
      (fun _ c => RegistryEffect st d db (.createClient name redirectUris scopes isPublic) c.db)
      ⟨db, none⟩ := by
  rw [createClient]
  cases hparse : ScopeSet.parse scopes with
  | error e => exact .unchanged _
  | ok set =>
      dsimp only
      rw [Prog.bind_eq, Prog.wp_attempt_bind]
      refine register_wp (fun e => .unchanged _) fun details hdetails hinsert => ?_
      exact .registered _ _ (.commandLine name redirectUris scopes isPublic set hparse) details hdetails
        hinsert

theorem addScope_wp {scope : ScopeDescription} : (addScope scope).wp flaky
    (fun _ c => RegistryEffect st d db (.addScope scope) c.db) ⟨db, none⟩ := by
  rw [addScope, Prog.bind_eq, Prog.wp_attempt_bind, ← Prog.bind_ret (query _), wp_query_auto]
  exact ⟨fun _ => .unchanged _, fun _ _ => .scopeAdded scope, fun e he => .scopeAdded scope⟩

end pages

/-- **All that the requests to the registries can do.** -/
theorem serve_registry (st : AppState) (d : Draws) (faults : List Bool) {req : Request}
    (hreq : req.Registers) (db : Db) :
    RegistryEffect st d db req (serve st d faults req db).2 := by
  have hserve {p : Service Empty Response}
      (h : p.wp (true ∈ faults) (fun _ c => RegistryEffect st d db req c.db) { db }) :
      RegistryEffect st d db req (p.serve faults db).2 :=
    Prog.wp_serve (S := Sharp) (R := fun _ db' => RegistryEffect st d db req db') p faults db h
  have hpage {p : Service AppError Response}
      (h : p.wp (true ∈ faults) (fun _ c => RegistryEffect st d db req c.db) { db }) :
      RegistryEffect st d db req ((orInternalError p).serve faults db).2 := by
    refine hserve ?_
    rw [orInternalError, Prog.bind_eq, Prog.wp_attempt_bind]
    exact Prog.wp_mono (fun r c h => by cases r <;> exact h) _ _ h
  cases hreq with
  | home headers =>
      refine hpage ?_
      rw [Pages.home, Prog.bind_eq]
      exact wp_currentSession (fun _ _ => .unchanged _) fun _ _ => .unchanged _
  | signInPage headers returnTo => exact .unchanged _
  | signUpPage headers returnTo => exact .unchanged _
  | appList headers path notice =>
      refine hpage (signedInUser_wp (.unchanged _) fun session user _ => ?_)
      exact wp_reads (Prog.only_bind (Prog.only_query (S := Sharp) (by rfl)) fun _ => .ret _) (.unchanged _)
  | appNew headers path =>
      refine hpage (signedInUser_wp (.unchanged _) fun session user _ => ?_)
      exact wp_reads (newAppForm_reads st d headers _ _ _) (.unchanged _)
  | appCreate headers pairs => exact hpage createPage_wp
  | appShow headers path clientId notice =>
      refine hpage (signedInUser_wp (.unchanged _) fun session user _ => ?_)
      refine ownedApp_wp (.unchanged _) fun app _ => ?_
      exact wp_reads (appPage_reads st d headers _ _ _ _) (.unchanged _)
  | appUpdate headers clientId pairs => exact hpage updatePage_wp
  | appRotateSecret headers clientId pairs => exact hpage rotateSecretPage_wp
  | appDelete headers clientId pairs => exact hpage deletePage_wp
  | createClient name redirectUris scopes isPublic => exact hserve createClient_wp
  | addScope scope => exact hserve addScope_wp

end SharpOauth
