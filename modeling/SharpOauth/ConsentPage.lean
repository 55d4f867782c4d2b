import SharpOauth.ClientRegistry
import SharpOauth.SignInDetour
import SharpOauth.Provenance

/-! # The consent page

The page lists what the user is asked to approve and carries the request as hidden fields; the
form sends the fields back, and the request is validated again from scratch.

* `authorize_asks` says what a page shows and sends, `consent_serve` what an approval does.
* What was shown is what is approved (`consent_page`): the fields lead to the same validated
  request as long as the client's row is the same, and the page has one description for every
  scope of that request, because a client may only be allowed scopes of the registry. -/

namespace SharpOauth

open Authorization

/-! ### Who is signed in -/

section session

variable {db : Db} {cr : Crates} {d : Draws} {headers : HeaderMap} {session : Session} {user : User}

/-- The session of a signed-in browser is found, -/
theorem SignedIn.find_session (hs : SignedIn cr d headers db session user) (hu : db.Unique)
    {value : String} (hcookie : CookieManager.get headers Session.sessionCookie = some value) :
    db.result (.sessionsFindActiveByHash (cr.hashToken value) d.now) = .ok (some session) := by
  obtain ⟨value', hcookie', hhash⟩ := hs.cookie
  obtain rfl : value' = value := Option.some.inj (hcookie'.symm.trans hcookie)
  refine congrArg Except.ok (hu.find (t := .sessions) hs.mem ?_ fun s hp => ?_)
  · simp [hhash, hs.unrevoked, hs.unexpired]
  · rw [decide_eq_true_eq] at hp
    simp [clash, hp.1, hhash]

/-- and so is its user. -/
theorem SignedIn.find_user (hs : SignedIn cr d headers db session user) (hu : db.Unique) :
    db.result (.usersFindById session.userId) = .ok (some user) := by
  refine congrArg Except.ok (hu.find (t := .users) hs.user_mem (by simp [hs.user_id]) fun u hid => ?_)
  rw [decide_eq_true_eq] at hid
  simp [clash, hid, hs.user_id]

/-- A signed-in browser is recognised. -/
theorem wp_currentSession_of {α : Type} {flaky : Prop} {Q : Except AppError α → Conn Sharp → Prop}
    {f : Option (Session × User) → Service AppError α} (hu : db.Unique)
    (hs : SignedIn cr d headers db session user) (hflaky : ∀ e, flaky → Q (.error e) ⟨db, none⟩)
    (hok : (f (some (session, user))).wp flaky Q ⟨db, none⟩) :
    ((currentSession cr d headers).bind f).wp flaky Q ⟨db, none⟩ := by
  obtain ⟨value, hcookie, hhash⟩ := hs.cookie
  rw [currentSession, hcookie]
  simp only [Session.findActive, Prog.bind_eq, Prog.pure_eq, Prog.bind_assoc]
  rw [wp_query_auto, hs.find_session hu hcookie]
  refine ⟨hflaky _, fun found hfound => ?_, by rintro e ⟨⟩⟩
  obtain rfl := Except.ok.inj hfound
  rw [db.after_of_reads rfl, Prog.bind_assoc, wp_query_auto, hs.find_user hu]
  refine ⟨hflaky _, fun owner howner => ?_, by rintro e ⟨⟩⟩
  obtain rfl := Except.ok.inj howner
  rw [db.after_of_reads rfl]
  exact hok

end session

/-! ### The page -/

section page

variable {st : AppState} {d : Draws} {headers : HeaderMap} {pairs : List (String × String)}
  {faults : List Bool} {db : Db}

/-- What a consent page shows, and the fields it sends. -/
structure Asks (cr : Crates) (d : Draws) (headers : HeaderMap) (pairs : List (String × String))
    (db : Db) (name : String) (user : User) (scopes : List ScopeDescription)
    (fields : List (String × String)) (params : Params) (v : ValidatedRequest) : Prop where
  params_ok : Params.fromPairs pairs = .ok params
  valid : Validated db (.fromParams params) v
  client_name : name = v.client.name
  signedIn : ∃ session, SignedIn cr d headers db session user
  listed : db.result (.scopesFindByNames v.scope.toList) = .ok scopes
  hidden : fields = (AuthorizationRequest.fromParams params).toPairs

theorem authorize_asks {csrf name : String} {user : User} {scopes : List ScopeDescription}
    {fields : List (String × String)}
    (h : (serve st d faults (.authorize headers pairs) db).1.body =
      .page (.consent csrf name user scopes fields)) :
    ∃ params v, Asks st.toCrates d headers pairs db name user scopes fields params v := by
  -- The page that is shown, if it is a consent page.
  have hwp : (authorize st d headers pairs).wp (true ∈ faults) (fun r _ => ∀ response csrf name user
      scopes fields, r = .ok response → response.body = .page (.consent csrf name user scopes fields) →
        ∃ params v, Asks st.toCrates d headers pairs db name user scopes fields params v) { db } := by
    simp only [authorize, Prog.bind_eq, Prog.pure_eq]
    refine wp_currentSession (fun e _ => by rintro _ _ _ _ _ _ ⟨⟩) fun signedIn hsigned => ?_
    cases hp : Params.fromPairs pairs with
    | error e => rintro _ _ _ _ _ _ ⟨⟩ ⟨⟩
    | ok params =>
        dsimp only
        rw [Prog.wp_attempt_bind]
        have hdecide : (decide st d (.fromParams params) signedIn).wp (true ∈ faults) (fun res c =>
            ∀ step, res = .ok step → step.Justified db (.fromParams params) signedIn d.now)
            ⟨db, none⟩ := decide_justified_wp
        refine Prog.wp_mono (fun res c h => ?_) _ _ hdecide
        cases res with
        | error e =>
            cases e with
            | unsafeLink message => rintro _ _ _ _ _ _ ⟨⟩ ⟨⟩
            | internal e => rintro _ _ _ _ _ _ ⟨⟩ ⟨⟩
            | redirect e =>
                rintro response _ _ _ _ _ ⟨⟩ hbody
                dsimp only [authorizationError] at hbody
                split at hbody <;> cases hbody
        | ok step =>
            cases step with
            | signIn returnTo => rintro _ _ _ _ _ _ ⟨⟩ ⟨⟩
            | redirectToClient url => rintro _ _ _ _ _ _ ⟨⟩ ⟨⟩
            | askConsent v user scopes =>
                rintro response _ _ _ _ _ ⟨⟩ ⟨⟩
                obtain ⟨hv, ⟨session, hs⟩, hscopes⟩ := h _ rfl
                exact ⟨params, v, hp, hv, rfl, ⟨session, hsigned _ hs⟩, hscopes, rfl⟩
  have hserve := Prog.wp_serve (S := Sharp) (R := fun r _ => ∀ csrf name user scopes fields,
      (Prog.value r).body = .page (.consent csrf name user scopes fields) →
        ∃ params v, Asks st.toCrates d headers pairs db name user scopes fields params v)
    (respond st d (.authorize headers pairs)) faults db ?_
  · exact hserve _ _ _ _ _ h
  · show (orInternalError (authorize st d headers pairs)).wp _ _ _
    rw [orInternalError, Prog.bind_eq, Prog.wp_attempt_bind]
    refine Prog.wp_mono (fun r c hr => ?_) _ _ hwp
    cases r with
    | error e => rintro _ _ _ _ _ ⟨⟩
    | ok response => exact fun _ _ _ _ _ hbody => hr response _ _ _ _ _ rfl hbody

/-- **One description is listed for every scope**, if all of them are registered. -/
theorem Asks.names {cr : Crates} {name : String} {user : User} {scopes : List ScopeDescription}
    {fields : List (String × String)} {params : Params} {v : ValidatedRequest}
    (h : Asks cr d headers pairs db name user scopes fields params v) (hu : db.Unique)
    (hknown : ∀ x ∈ v.scope, ∃ s ∈ db.scopes, s.name = x) :
    (scopes.map (·.name)).Perm v.scope.toList ∧ scopes ⊆ db.scopes := by
  have hperm : scopes.Perm (db.scopes.filter fun s => s.name ∈ v.scope.toList) := by
    rw [← Except.ok.inj h.listed]
    exact List.perm_insertionSort _ _
  have hdistinct : (db.scopes.map (·.name)).Nodup := by
    refine List.pairwise_map.2 ((hu .scopes).imp fun hclash hname => ?_)
    simp [clash, hname] at hclash
  refine ⟨?_, fun s hs => (List.mem_filter.1 (hperm.mem_iff.1 hs)).1⟩
  have hlisted : (scopes.map (·.name)).Nodup :=
    (hperm.map _).nodup_iff.2 (hdistinct.sublist (List.filter_sublist.map _))
  have hscope : v.scope.toList.Nodup := v.scope.sorted.imp fun hlt => hlt.ne
  refine (List.perm_ext_iff_of_nodup hlisted hscope).2 fun x => ?_
  rw [(hperm.map _).mem_iff, List.mem_map]
  constructor
  · rintro ⟨s, hs, rfl⟩
    simpa using (List.mem_filter.1 hs).2
  · intro hx
    obtain ⟨s, hs, rfl⟩ := hknown x hx
    exact ⟨s, List.mem_filter.2 ⟨hs, by simpa using hx⟩, rfl⟩

end page

/-! ### The approval -/

section approval

variable {st : AppState} {es : List Event} {d : Draws} {headers : HeaderMap}
  {pairs : List (String × String)} {db : Db}

/-- An approval that nothing stands in the way of. -/
theorem consent_serve {params : Params} {session : Session} {user : User} {v : ValidatedRequest}
    (hu : db.Unique) (hs : SignedIn st.toCrates d headers db session user)
    (hp : Params.fromPairs pairs = .ok params)
    (hcsrf : Csrf.verify headers (params.get Csrf.csrfField) = true)
    (happroved : params.get "decision" = some "approve")
    (hv : Validated db (.fromParams params) v)
    (hgrant : db.result (db.grantStatement user.id v.client.id d v.scope) = .ok ())
    (hinsert : (db.after (db.grantStatement user.id v.client.id d v.scope)).result
      (.codesInsert (newCode st.toCrates d v user session)) = .ok ()) :
    serve st d [] (.consent headers pairs) db = (codeResponse st d v,
      (db.after (db.grantStatement user.id v.client.id d v.scope)).after
        (.codesInsert (newCode st.toCrates d v user session))) := by
  have hcalm : true ∉ ([] : List Bool) := List.not_mem_nil
  have hwp : (respond st d (.consent headers pairs)).wp (true ∈ ([] : List Bool))
      (fun r c => Prog.value r = codeResponse st d v ∧
        c.db = (db.after (db.grantStatement user.id v.client.id d v.scope)).after
          (.codesInsert (newCode st.toCrates d v user session))) { db } := by
    show (orInternalError (consent st d headers pairs)).wp _ _ _
    rw [orInternalError, Prog.bind_eq, Prog.wp_attempt_bind, consent, Prog.bind_eq]
    refine wp_currentSession_of hu hs (fun e h => absurd h hcalm) ?_
    rw [hp]
    dsimp only
    rw [hcsrf, Bool.not_true, if_neg Bool.false_ne_true, Prog.bind_eq, Prog.wp_attempt_bind]
    simp only [completeConsent, Prog.bind_eq]
    refine wp_validate (fun e h => absurd h hcalm) (fun m h => absurd hv (h v))
      (fun client err hr h => absurd hv (h v)) fun v' hv' => ?_
    obtain rfl := hv'.eq hv
    rw [if_neg (by simp [happroved]), Prog.wp_lift_bind]
    refine grant_wp (fun e h => absurd h hcalm) (fun e he => ?_) fun _ => ?_
    · cases hgrant.symm.trans he
    dsimp only
    rw [Prog.wp_lift]
    refine issueCode_wp (fun e h => absurd h hcalm) (fun e he => ?_) fun _ => ?_
    · cases hinsert.symm.trans he
    rw [codeResponse]
    cases codeUrl st d v' with
    | ok url => exact ⟨rfl, rfl⟩
    | error e => exact ⟨rfl, rfl⟩
  have hserve := Prog.wp_serve (S := Sharp) (R := fun r db' => Prog.value r = codeResponse st d v ∧
      db' = (db.after (db.grantStatement user.id v.client.id d v.scope)).after
        (.codesInsert (newCode st.toCrates d v user session))) _ [] db hwp
  exact Prod.ext hserve.1 hserve.2

/-- The consent of a pair after an approval. -/
theorem Db.activeScopes_after_grant {userId clientId : Uuid} {scopes : ScopeSet} {u : Unit}
    (hu : db.Unique)
    (h : db.result (db.grantStatement userId clientId d scopes) = .ok u) :
    (db.after (db.grantStatement userId clientId d scopes)).activeScopes userId clientId =
      some (db.scopesWith userId clientId scopes) := by
  have hunique : (db.after (db.grantStatement userId clientId d scopes)).Unique :=
    Sql.exec_unique clash_symm (sem (db.grantStatement userId clientId d scopes))
      (sharp_lawful.keepsKeys (db.grantStatement userId clientId d scopes)) hu
  -- Some row of the pair carries the scopes, and there is only one row.
  have hrow : ∃ r ∈ (db.after (db.grantStatement userId clientId d scopes)).consents,
      r.userId = userId ∧ r.clientId = clientId ∧ r.revokedAt = none ∧
        r.scopes = (db.scopesWith userId clientId scopes).toList := by
    rcases Db.after_consentsUpsert db h with ⟨⟨r, hr, hpair⟩, hrows⟩ | ⟨-, hrows⟩
    · rw [Db.grantStatement, hrows]
      refine ⟨_, List.mem_map_of_mem hr, ?_⟩
      rw [Db.approve, if_pos hpair]
      exact ⟨hpair.1, hpair.2, rfl, rfl⟩
    · rw [Db.grantStatement, hrows]
      exact ⟨_, List.mem_append_right _ (List.mem_singleton_self _), rfl, rfl, rfl, rfl⟩
  obtain ⟨r, hr, huser, hclient, hrevoked, hscopes⟩ := hrow
  have hfound : (db.after (db.grantStatement userId clientId d scopes)).consents.find?
      (fun r => r.userId = userId ∧ r.clientId = clientId ∧ r.revokedAt = none) = some r := by
    refine hunique.find (t := .consents) hr (by simp [huser, hclient, hrevoked]) fun r' hp => ?_
    rw [decide_eq_true_eq] at hp
    simp [clash, hp, huser, hclient]
  rw [Db.activeScopes, hfound, Option.map_some, Option.map_some, hscopes, ScopeSet.ofList_toList]

theorem Db.mem_scopesWith_iff {userId clientId : Uuid} {scopes : ScopeSet} {x : String} :
    x ∈ db.scopesWith userId clientId scopes ↔
      x ∈ scopes ∨ ∃ previous, db.activeScopes userId clientId = some previous ∧ x ∈ previous := by
  rw [Db.scopesWith]
  cases db.activeScopes userId clientId with
  | none => simp
  | some previous => simp [or_comm]

/-- The redirect of an approved request carries the code, because its URI was checked. -/
theorem codeUrl_ok {v : ValidatedRequest} (hclient : v.client.WellFormed st.toCrates db.scopes)
    (huri : v.redirectUri ∈ v.client.redirectUris) : ∃ url, codeUrl st d v = .ok url := by
  obtain ⟨url, hurl⟩ := hclient.uris v.redirectUri huri
  rw [codeUrl, redirectWithParams, hurl.parses]
  exact ⟨_, rfl⟩

end approval

/-! ### Consents of a run -/

section runs

variable {st : AppState} {es : List Event} {d : Draws} {db db' : Db} {e : Event}

/-- The primary keys of the consents. -/
abbrev Db.consentIds (db : Db) : List Uuid := db.consents.map (·.id)

/-- An approval adds at most one consent, with a drawn id. -/
theorem Db.consentIds_grant {userId clientId : Uuid} {scopes : ScopeSet} {u : Unit}
    (h : db.result (db.grantStatement userId clientId d scopes) = .ok u) :
    ∀ id ∈ (db.after (db.grantStatement userId clientId d scopes)).consentIds,
      id ∈ db.consentIds ∨ id = d.uuid 1 := by
  intro id hid
  obtain ⟨c, hc, rfl⟩ := List.mem_map.1 hid
  rcases Db.after_consentsUpsert db h with ⟨-, hrows⟩ | ⟨-, hrows⟩
  · rw [Db.grantStatement, hrows] at hc
    obtain ⟨c', hc', rfl⟩ := List.mem_map.1 hc
    refine .inl (List.mem_map.2 ⟨c', hc', ?_⟩)
    rw [Db.approve]
    split_ifs <;> rfl
  · rw [Db.grantStatement, hrows] at hc
    rcases List.mem_append.1 hc with hc | hc
    · exact .inl (List.mem_map_of_mem hc)
    · rw [List.mem_singleton.1 hc]
      exact .inr rfl

theorem Event.consentIds (st : AppState) (e : Event) : ∀ id ∈ (e.after st).consentIds,
    id ∈ e.before.consentIds ∨ id = e.draws.uuid 1 := by
  have heffect := e.effect st
  generalize e.after st = db' at heffect ⊢
  generalize e.req = req at heffect
  generalize e.answer st = answer at heffect
  have hkept (h : db' .consents = e.before .consents) (id : Uuid) (hid : id ∈ db'.consentIds) :
      id ∈ e.before.consentIds ∨ id = e.draws.uuid 1 := by
    rw [Db.consentIds, Db.consents, h] at hid
    exact .inl hid
  cases heffect with
  | authorize headers pairs r db' h => exact hkept (h.frame (by decide))
  | token headers pairs r db' h => exact hkept (h.frame (by decide) (by decide))
  | revoke headers pairs r db' h => exact hkept (h.frame (by decide))
  | notAForm => exact fun id hid => .inl hid
  | account req r db' h => exact hkept (h.frame (by decide) (by decide))
  | registry req hreq r db' h =>
      intro id hid
      obtain ⟨c, hc, rfl⟩ := List.mem_map.1 hid
      exact .inl (List.mem_map_of_mem (h.consents_subset hc))
  | consent headers pairs r db' h =>
      cases h with
      | grantedOnly params hp hcsrf happroved session user hs v hv hgrant => exact Db.consentIds_grant hgrant
      | issued params hp hcsrf happroved session user hs v hv hgrant hinsert =>
          intro id hid
          rw [Db.consentIds, Db.consents, Db.after_of_writes _ (by simp [Stmt.writes])] at hid
          exact Db.consentIds_grant hgrant id hid
      | _ => exact fun id hid => .inl hid

/-- The ids of the consents were drawn by requests of the run. -/
theorem Run.consent_drawn (run : Run st es db) :
    ∀ id ∈ db.consentIds, ∃ e ∈ es, e.draws.uuid 1 = id := by
  induction run with
  | init => exact fun id hid => absurd hid List.not_mem_nil
  | @step es db run req d faults fresh ih =>
      intro id hid
      rcases Event.consentIds st ⟨req, d, faults, db, (serve st d faults req db).1⟩ id hid with
        hid | rfl
      · obtain ⟨e, he, hi⟩ := ih id hid
        exact ⟨e, List.mem_cons_of_mem _ he, hi⟩
      · exact ⟨_, List.mem_cons_self, rfl⟩

end runs

/-! ### From the page to the code -/

/-- The form of a consent page is sent back with an approval, by a browser that is signed in. -/
structure Submits (st : AppState) (es : List Event) (db : Db) (fields : List (String × String))
    (d : Draws) (headers : HeaderMap) (pairs : List (String × String)) (session : Session)
    (user : User) : Prop where
  fresh : Fresh es d
  /-- SHA-256 does not collide on the secrets of the run. -/
  noCollision : ∀ e ∈ es, st.sha256 (utf8 (generateToken (e.draws.secret 0))) =
    st.sha256 (utf8 (generateToken (d.secret 0))) → e.draws.secret 0 = d.secret 0
  signedIn : SignedIn st.toCrates d headers db session user
  form : ∃ csrf, CookieManager.get headers Csrf.csrfCookie = some csrf ∧
    pairs.Perm ([(Csrf.csrfField, csrf), ("decision", "approve")] ++ fields)

/-- The answer to an approval of exactly the scopes of `v`. -/
structure Approved (st : AppState) (d : Draws) (v : ValidatedRequest) (session : Session)
    (user : User) (db : Db) (out : Response × Db) : Prop where
  redirected : ∃ url, codeUrl st d v = .ok url ∧ out.1 = redirect url
  stored : out.2.codes = db.codes ++ [newCode st.toCrates d v user session]
  covers : ScopeSet.parse (newCode st.toCrates d v user session).scope = .ok v.scope
  recorded : ∃ all, out.2.activeScopes user.id v.client.id = some all ∧
    ∀ x, x ∈ all ↔ x ∈ v.scope ∨
      ∃ previous, db.activeScopes user.id v.client.id = some previous ∧ x ∈ previous

section consent

variable {st : AppState} {es : List Event} {d : Draws} {headers : HeaderMap}
  {pairs fields : List (String × String)} {db : Db} {session : Session} {user : User}

/-- The fields of a page lead to the request of the page. -/
theorem fromPairs_of_form {r : AuthorizationRequest} (hr : r.Plain) {csrf : String}
    (hperm : pairs.Perm ([(Csrf.csrfField, csrf), ("decision", "approve")] ++ r.toPairs)) :
    ∃ params, Params.fromPairs pairs = .ok params ∧ AuthorizationRequest.fromParams params = r := by
  have hextra : ∀ p ∈ [(Csrf.csrfField, csrf), ("decision", "approve")],
      p.1 ∉ AuthorizationRequest.names := by
    simp only [List.forall_mem_cons, List.not_mem_nil, false_implies, implies_true, and_true]
    decide
  have hnodup : (pairs.map Prod.fst).Nodup := by
    rw [(hperm.map _).nodup_iff, List.map_append, List.nodup_append]
    refine ⟨by simp [Csrf.csrfField], r.toPairs_nodup, fun x hx y hy hxy => ?_⟩
    obtain ⟨p, hp, rfl⟩ := List.mem_map.1 hx
    obtain ⟨p', hp', rfl⟩ := List.mem_map.1 hy
    exact hextra p hp (hxy ▸ AuthorizationRequest.names_of_toPairs hp')
  obtain ⟨params, hparams⟩ := (Params.fromPairs_ok_iff pairs).2 hnodup
  exact ⟨params, hparams, AuthorizationRequest.fromParams_of_perm hr hperm hextra hparams⟩

/-- New ids and a new code are in nobody's way. -/
theorem Run.approval_ok (run : Run st es db) (hs : Submits st es db fields d headers pairs session user)
    (v : ValidatedRequest) :
    db.result (db.grantStatement user.id v.client.id d v.scope) = .ok () ∧
      (db.after (db.grantStatement user.id v.client.id d v.scope)).result
        (.codesInsert (newCode st.toCrates d v user session)) = .ok () := by
  constructor
  · cases hgrant : db.result (db.grantStatement user.id v.client.id d v.scope) with
    | ok u => rfl
    | error e =>
        obtain ⟨c, hc, hid⟩ := Db.result_consentsUpsert_error db hgrant
        obtain ⟨e', he', hdrawn⟩ := run.consent_drawn c.id (List.mem_map_of_mem hc)
        exact absurd (hdrawn.trans hid) (hs.fresh.uuid_new e' he' 1 1)
  · cases hinsert : (db.after (db.grantStatement user.id v.client.id d v.scope)).result
        (.codesInsert (newCode st.toCrates d v user session)) with
    | ok u => rfl
    | error e =>
        obtain ⟨c, hc, hclash⟩ := Db.result_codesInsert_error _ hinsert
        rw [codes_grantStatement] at hc
        obtain ⟨i, hi, hrow⟩ := run.code_origin c hc
        rw [hrow] at hclash
        rcases hclash with hid | hhash
        · exact absurd hid.symm (hs.fresh.uuid_new i.event hi 0 0)
        · have hsha : st.sha256 (utf8 (generateToken (i.event.draws.secret 0))) =
              st.sha256 (utf8 (generateToken (d.secret 0))) :=
            Vector.toList_inj.1 (base64url_inj hhash.symm)
          exact absurd (hs.noCollision i.event hi hsha) (hs.fresh.secret_new i.event hi 0 0)

/-- **An approval stores what the page asked for.** -/
theorem Run.approved_form (run : Run st es db) {r : AuthorizationRequest} (hr : r.Plain)
    {v : ValidatedRequest} (hv : Validated db r v)
    (hs : Submits st es db r.toPairs d headers pairs session user) :
    Approved st d v session user db (serve st d [] (.consent headers pairs) db) := by
  obtain ⟨csrf, hcookie, hperm⟩ := hs.form
  obtain ⟨params, hparams, hrequest⟩ := fromPairs_of_form hr hperm
  have htoken : params.get Csrf.csrfField = some csrf :=
    Params.get_of_mem hparams (hperm.mem_iff.2 (by simp)) (CookieManager.get_ne_empty hcookie)
  have hdecision : params.get "decision" = some "approve" :=
    Params.get_of_mem hparams (hperm.mem_iff.2 (by simp)) (by decide)
  have hcsrf : Csrf.verify headers (params.get Csrf.csrfField) = true := by
    simp [Csrf.verify, hcookie, htoken]
  obtain ⟨hgrant, hinsert⟩ := run.approval_ok hs v
  have hserve := consent_serve run.unique hs.signedIn hparams hcsrf hdecision (hrequest ▸ hv) hgrant
    hinsert
  have hclient := run.registryInv.rows v.client hv.redirectable.mem
  obtain ⟨url, hurl⟩ := codeUrl_ok (d := d) hclient hv.redirectable.registered
  obtain ⟨-, -, ⟨raw, -, hscope⟩, -⟩ := checkRequest_ok hv.checked
  rw [hserve]
  refine ⟨⟨url, hurl, ?_⟩, ?_, ScopeSet.parse_toString hscope, ?_⟩
  · rw [codeResponse, hurl]
  · rw [Db.after_codesInsert _ hinsert, codes_grantStatement]
  · have hconsents (q : Stmt) (hq : .consents ∉ q.writes) (db : Db) (userId clientId : Uuid) :
        (db.after q).activeScopes userId clientId = db.activeScopes userId clientId := by
      rw [Db.activeScopes, Db.consents, db.after_of_writes hq, Db.activeScopes]
    refine ⟨_, (hconsents _ (by simp [Stmt.writes]) _ _ _).trans
      (Db.activeScopes_after_grant run.unique hgrant), fun x => Db.mem_scopesWith_iff⟩

end consent

/-- **What the user approves is what was shown.**  Approving a consent page later on, while the
row of the client is still the same, validates the same request again, stores the listed scopes
and no others, and issues a code for them. -/
theorem consent_page {st : AppState} {later earlier : List Event} {e : Event} {db : Db}
    (run : Run st (later ++ e :: earlier) db) {headers : HeaderMap} {pairs : List (String × String)}
    (hreq : e.req = .authorize headers pairs) {csrf name : String} {user : User}
    {scopes : List ScopeDescription} {fields : List (String × String)}
    (hbody : e.response.body = .page (.consent csrf name user scopes fields)) :
    ∃ params v, Params.fromPairs pairs = .ok params ∧
      (validate (.fromParams params)).serve [] e.before = (.ok v, e.before) ∧
      fields = (AuthorizationRequest.fromParams params).toPairs ∧
      (scopes.map (·.name)).Perm v.scope.toList ∧ scopes ⊆ e.before.scopes ∧
      (v.client ∈ db.clients → ∀ (d : Draws) (headers' : HeaderMap)
        (pairs' : List (String × String)) (session' : Session) (user' : User),
        Submits st (later ++ e :: earlier) db fields d headers' pairs' session' user' →
        (∃ params', Params.fromPairs (formParse (utf8 (formAppend "" pairs'))) = .ok params' ∧
          (validate (.fromParams params')).serve [] db = (.ok v, db)) ∧
        Approved st d v session' user' db
          (serve st d [] (.consent headers' (formParse (utf8 (formAppend "" pairs')))) db)) := by
  obtain ⟨db', hupTo⟩ := run.upTo
  obtain ⟨hbefore, -, hresponse, -⟩ := hupTo.cons
  rw [hresponse, Event.answer, hreq] at hbody
  obtain ⟨params, v, h⟩ := authorize_asks hbody
  have hchecked := h.valid.checked
  obtain ⟨-, -, -, hallowed, -⟩ := checkRequest_ok hchecked
  obtain ⟨hobject, huri⟩ := checkRequest_noObject hchecked
  have hplain : (AuthorizationRequest.fromParams params).Plain :=
    ⟨AuthorizationRequest.fromParams_nonempty params, hobject, huri⟩
  -- The client may only be allowed scopes of the registry.
  have hrow := hbefore.registryInv.rows v.client h.valid.redirectable.mem
  obtain ⟨hperm, hsubset⟩ := h.names hbefore.unique fun x hx => hrow.scopes_known x (hallowed x hx)
  refine ⟨params, v, h.params_ok, validate_serve h.valid, h.hidden, hperm, hsubset,
    fun hclient d headers' pairs' session' user' hs => ?_⟩
  have hv : Validated db (.fromParams params) v := by
    obtain ⟨clientId, hid, hfound⟩ := h.valid.redirectable.found
    refine ⟨⟨⟨v.client.clientId, h.valid.redirectable.clientId, ?_⟩, h.valid.redirectable.active,
      h.valid.redirectable.redirectUri, h.valid.redirectable.registered⟩, hchecked⟩
    exact run.unique.find (t := .clients) hclient (by simp) fun c hc => by
      rw [decide_eq_true_eq] at hc
      simp [clash, hc]
  rw [h.hidden] at hs
  rw [formParse_formAppend]
  obtain ⟨csrf', -, hform⟩ := hs.form
  obtain ⟨params', hparams', hrequest⟩ := fromPairs_of_form hplain hform
  exact ⟨⟨params', hparams', validate_serve (hrequest ▸ hv)⟩, run.approved_form hplain hv hs⟩

/-- What was accepted passed every check. -/
theorem validated_of_serve {faults : List Bool} {db : Db} {r : AuthorizationRequest}
    {v : ValidatedRequest} (h : ((validate r).serve faults db).1 = .ok v) : Validated db r v := by
  have hwp : (validate r).wp (true ∈ faults) (fun res _ => ∀ v, res = .ok v → Validated db r v)
      { db } := by
    rw [← Prog.bind_ret (validate r)]
    refine wp_validate (fun e _ => by rintro v ⟨⟩) (fun m _ => by rintro v ⟨⟩)
      (fun client err _ _ => by rintro v ⟨⟩) fun v hv => ?_
    rintro v' ⟨⟩
    exact hv
  exact Prog.wp_serve (S := Sharp) (R := fun res _ => ∀ v, res = .ok v → Validated db r v) _ faults db
    hwp v h

namespace Sample

/-- The user opens the consent page of the first client. -/
def pageEvent : Event := event 4 (.authorize signedInBrowser (request none).toPairs) registered

theorem served_page : Served 5 (pageEvent :: registrations) registered :=
  served_registered.step (by decide) (rows_inj (by decide +kernel))

/-- The consent page of a response. -/
def consentPage? (r : Response) :
    Option ((String × String) × User × List ScopeDescription × List (String × String)) :=
  match r.body with
  | .page (.consent csrf name user scopes fields) => some ((csrf, name), user, scopes, fields)
  | _ => none

theorem consentPage?_eq_some {r : Response} {csrf name : String} {user : User}
    {scopes : List ScopeDescription} {fields : List (String × String)}
    (h : consentPage? r = some ((csrf, name), user, scopes, fields)) :
    r.body = .page (.consent csrf name user scopes fields) := by
  unfold consentPage? at h
  split at h
  · cases h
    assumption
  · cases h

theorem page_body : pageEvent.response.body = .page (.consent
    "Dg4ODg4ODg4ODg4ODg4ODg4ODg4ODg4ODg4ODg4ODg4" "A" user
    [⟨"offline_access", "Stay connected when you are not using the app"⟩,
      ⟨"openid", "Sign you in with your Sharpnr account"⟩] (request none).toPairs) :=
  consentPage?_eq_some (by decide +kernel)

theorem submits : Submits state (pageEvent :: registrations) registered (request none).toPairs (draws 5)
    signedInBrowser consentForm session user where
  fresh := served_page.fresh (by decide)
  noCollision e he h := by
    obtain ⟨m, hm, hd⟩ := served_page.draws_lt e he
    rw [hd] at h
    have hall : ∀ m < 5, state.sha256 (utf8 (generateToken ((draws m).secret 0))) ≠
        state.sha256 (utf8 (generateToken ((draws 5).secret 0))) := by
      decide +kernel
    exact absurd h (hall m hm)
  signedIn := { signedIn with unexpired := by decide }
  form := ⟨"x", by decide +kernel, List.perm_append_comm⟩

end Sample

theorem consent_page_shown : ∃ v, Approved Sample.state (Sample.draws 5) v Sample.session Sample.user
    Sample.registered (serve Sample.state (Sample.draws 5) []
      (.consent Sample.signedInBrowser (formParse (utf8 (formAppend "" Sample.consentForm))))
      Sample.registered) := by
  have run : Run Sample.state ([] ++ Sample.pageEvent :: Sample.registrations) Sample.registered :=
    Sample.served_page.run
  obtain ⟨params, v, -, hv, -, -, -, h⟩ := consent_page run rfl Sample.page_body
  have hmem : v.client ∈ Sample.registered.clients :=
    (validated_of_serve (congrArg Prod.fst hv)).redirectable.mem
  exact ⟨v, (h hmem _ _ _ _ _ Sample.submits).2⟩

end SharpOauth
