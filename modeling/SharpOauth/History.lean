import SharpOauth.Families

/-! # Runs as histories

What a row of the tables says is explained by the requests of the run.

* The draws of two requests have nothing in common (`Run.pairwise`), so a drawn id names the
  request that drew it (`Run.eq_of_uuid`).
* `Issuance` is a request that stored an authorization code; every row of a code comes from one
  (`Run.code_origin`), and it stays until its client is deleted (`Run.code_kept`).
* `Presented` is a complete presentation of a code by an authenticated client; only that uses
  a code up (`Event.code_row`). -/

namespace SharpOauth

open Token Authorization

/-! ### Events -/

namespace Event

variable (st : AppState) (e : Event)

/-- The response to the request of an event. -/
def answer : Response := (serve st e.draws e.faults e.req e.before).1

/-- The tables after the request of an event. -/
def after : Db := (serve st e.draws e.faults e.req e.before).2

theorem effect :
    Effect st e.draws (true ∈ e.faults) e.before e.req (e.answer st) (e.after st) :=
  serve_effect st e.draws e.faults e.req e.before

end Event

section runs

variable {st : AppState} {es later earlier : List Event} {e e' : Event} {db : Db}

theorem Run.cons (run : Run st (e :: es) db) : Run st es e.before ∧ Fresh es e.draws ∧
    e.response = e.answer st ∧ db = e.after st := by
  cases run with
  | step run req d faults fresh => exact ⟨run, fresh, rfl, rfl⟩

/-- The run up to one of its events. -/
theorem Run.upTo (run : Run st (later ++ e :: earlier) db) : ∃ db', Run st (e :: earlier) db' := by
  induction later generalizing db with
  | nil => exact ⟨db, run⟩
  | cons x later ih => exact ih run.cons.1

/-- The later of two events draws after the earlier. -/
structure DrawnAfter (e e' : Event) : Prop where
  clock : e'.draws.now ≤ e.draws.now
  uuid : ∀ i j, e.draws.uuid i ≠ e'.draws.uuid j
  secret : ∀ i j, e.draws.secret i ≠ e'.draws.secret j

theorem Run.pairwise (run : Run st es db) : es.Pairwise DrawnAfter := by
  induction run with
  | init => exact .nil
  | step run req d faults fresh ih =>
      refine .cons (fun e' he' => ?_) ih
      exact ⟨fresh.clock e' he', fun i j h => fresh.uuid_new e' he' j i h.symm,
        fun i j h => fresh.secret_new e' he' j i h.symm⟩

/-- **A drawn id names its event.** -/
theorem Run.eq_of_uuid (run : Run st es db) (he : e ∈ es) (he' : e' ∈ es) {i j : Fin 3}
    (h : e.draws.uuid i = e'.draws.uuid j) : e = e' := by
  by_contra hne
  have hor : es.Pairwise fun e e' => DrawnAfter e e' ∨ DrawnAfter e' e := run.pairwise.imp .inl
  have hsymm : Std.Symm fun e e' : Event => DrawnAfter e e' ∨ DrawnAfter e' e := ⟨fun _ _ => Or.symm⟩
  rcases hor.forall he he' hne with h' | h'
  · exact h'.uuid i j h
  · exact h'.uuid j i h.symm

end runs

/-! ### Clients -/

section clients

variable {st : AppState} {es : List Event} {d : Draws} {db db' : Db}

/-- The primary keys of the clients. -/
abbrev Db.clientIds (db : Db) : List Uuid := db.clients.map (·.id)

theorem deleteClient_clients {id : Uuid} (h : deleteClient id db = some db') :
    db'.clients = db.clients.filter (fun c => c.id ≠ id) ∧
      db'.consents = db.consents.filter fun c => c.clientId ≠ id := by
  rw [deleteClient] at h
  split_ifs at h
  obtain rfl := Option.some.inj h
  exact ⟨rfl, rfl⟩

/-- A new client has the first drawn id. -/
theorem Stmt.Registers.clientIds {q : Stmt} (hq : q.Registers d) (db : Db) :
    ∀ id ∈ (db.after q).clientIds, id ∈ db.clientIds ∨ id = d.uuid 0 := by
  have hkept (h : .clients ∉ q.writes) : (db.after q).clients = db.clients := db.after_of_writes h
  intro id hid
  obtain ⟨c, hc, rfl⟩ := List.mem_map.1 hid
  cases hq with
  | read q h =>
      rw [hkept (by simp [h])] at hc
      exact .inl (List.mem_map_of_mem hc)
  | scopesInsert scope =>
      rw [hkept (by simp [Stmt.writes])] at hc
      exact .inl (List.mem_map_of_mem hc)
  | clientsInsert client h =>
      rcases db.after_clientsInsert client with hrows | hrows
      · rw [hrows] at hc
        exact .inl (List.mem_map_of_mem hc)
      · rw [hrows] at hc
        rcases List.mem_append.1 hc with hc | hc
        · exact .inl (List.mem_map_of_mem hc)
        · rw [List.mem_singleton.1 hc]
          exact .inr h
  | clientsUpdateDetails id' name redirectUris allowedScopes now =>
      rw [Db.after_clientsUpdateDetails] at hc
      obtain ⟨c', hc', rfl⟩ := List.mem_map.1 hc
      refine .inl (List.mem_map.2 ⟨c', hc', ?_⟩)
      split_ifs <;> rfl
  | clientsUpdateSecretHash id' secretHash now =>
      rw [Db.after_clientsUpdateSecretHash] at hc
      obtain ⟨c', hc', rfl⟩ := List.mem_map.1 hc
      refine .inl (List.mem_map.2 ⟨c', hc', ?_⟩)
      split_ifs <;> rfl
  | clientsDelete id' =>
      rcases db.after_clientsDelete id' with h | h
      · rw [h] at hc
        exact .inl (List.mem_map_of_mem hc)
      · rw [(deleteClient_clients h).1] at hc
        exact .inl (List.mem_map_of_mem (List.mem_filter.1 hc).1)

theorem Registry.clientIds (h : Registry d db db') :
    ∀ id ∈ db'.clientIds, id ∈ db.clientIds ∨ id = d.uuid 0 := by
  induction h with
  | refl => exact fun id hid => .inl hid
  | tail _ hstep ih =>
      obtain ⟨q, hq, rfl⟩ := hstep
      intro id hid
      rcases hq.clientIds _ id hid with hid | hid
      · exact ih id hid
      · exact .inr hid

/-- **A new client has a new id.** -/
theorem Effect.clientIds {flaky : Prop} {req : Request} {r : Response}
    (h : Effect st d flaky db req r db') :
    ∀ id ∈ db'.clientIds, id ∈ db.clientIds ∨ id = d.uuid 0 := by
  have hkept (h : db' .clients = db .clients) (id : Uuid) (hid : id ∈ db'.clientIds) :
      id ∈ db.clientIds ∨ id = d.uuid 0 := by
    rw [Db.clientIds, Db.clients, h] at hid
    exact .inl hid
  cases h with
  | authorize headers pairs r db' h => exact hkept (h.frame (by decide))
  | consent headers pairs r db' h => exact hkept (h.frame (by decide) (by decide))
  | token headers pairs r db' h => exact hkept (h.frame (by decide) (by decide))
  | revoke headers pairs r db' h => exact hkept (h.frame (by decide))
  | notAForm => exact fun id hid => .inl hid
  | account req r db' h => exact hkept (h.frame (by decide) (by decide))
  | registry req hreq r db' h => exact h.clientIds

/-- The ids of the clients were drawn by requests of the run. -/
theorem Run.client_drawn (run : Run st es db) :
    ∀ id ∈ db.clientIds, ∃ e ∈ es, ∃ i, e.draws.uuid i = id := by
  induction run with
  | init => exact fun id hid => absurd hid List.not_mem_nil
  | step run req d faults fresh ih =>
      intro id hid
      rcases (serve_effect st d faults req _).clientIds id hid with hid | rfl
      · obtain ⟨e, he, hi⟩ := ih id hid
        exact ⟨e, List.mem_cons_of_mem _ he, hi⟩
      · exact ⟨_, List.mem_cons_self, 0, rfl⟩

end clients

/-! ### Authorization codes -/

/-- A signed-in user approves a request on the consent screen: the form carries the CSRF token of
the browser, and the consent of the user for the client is stored. -/
structure Approval (st : AppState) (e : Event) (headers : HeaderMap) (pairs : List (String × String))
    (params : Params) (session : Session) (user : User) (v : ValidatedRequest) : Prop where
  req : e.req = .consent headers pairs
  params_ok : Params.fromPairs pairs = .ok params
  csrf : Csrf.verify headers (params.get Csrf.csrfField) = true
  decision : params.get "decision" = some "approve"
  signedIn : SignedIn st.toCrates e.draws headers e.before session user
  valid : Validated e.before (.fromParams params) v
  granted : e.before.result (e.before.grantStatement user.id v.client.id e.draws v.scope) = .ok ()
  stored : (e.after st).consents =
    (e.before.after (e.before.grantStatement user.id v.client.id e.draws v.scope)).consents

/-- A request of the run that stored an authorization code: an authorization request for scopes
that were approved before, or an approval. -/
structure Issuance (st : AppState) where
  event : Event
  headers : HeaderMap
  pairs : List (String × String)
  params : Params
  params_ok : Params.fromPairs pairs = .ok params
  session : Session
  user : User
  signedIn : SignedIn st.toCrates event.draws headers event.before session user
  validated : ValidatedRequest
  valid : Validated event.before (.fromParams params) validated
  request :
    (event.req = .authorize headers pairs ∧ ∃ granted,
      event.before.activeScopes user.id validated.client.id = some granted ∧
        validated.scope.isSubsetOf granted = true) ∨
    Approval st event headers pairs params session user validated
  stored : newCode st.toCrates event.draws validated user session ∈ (event.after st).codes

namespace Issuance

variable {st : AppState} (i : Issuance st)

/-- The code that was sent to the client. -/
def code : String := generateToken (i.event.draws.secret 0)

/-- Its row. -/
def row : AuthorizationCode := newCode st.toCrates i.event.draws i.validated i.user i.session

/-- One request stores one row. -/
theorem row_eq {i j : Issuance st} (hu : (i.event.after st).Unique) (h : i.event = j.event) :
    i.row = j.row := by
  have hj : j.row ∈ (i.event.after st).codes := by
    rw [h]
    exact j.stored
  refine hu.eq (t := .codes) i.stored hj ?_
  simp [clash, row, newCode, h]

end Issuance

/-- An authenticated client makes a complete presentation of `code`. -/
inductive Presented (st : AppState) (e : Event) (code : String) : Prop where
  | intro (headers : HeaderMap) (pairs : List (String × String))
      (hreq : e.req = .token headers (some pairs)) (params : Params) (client : OAuthClient)
      (hl : Login st e.before (authorizationHeader headers) pairs params client)
      (hg : params.get "grant_type" = some "authorization_code") (uri verifier : String)
      (hp : Presents params code uri verifier)

section codes

variable {st : AppState} {es : List Event} {d : Draws} {db db' : Db} {e : Event}

/-- The registries add no code. -/
theorem Registry.codes_subset (h : Registry d db db') : db'.codes ⊆ db.codes := by
  induction h with
  | refl => exact List.Subset.refl _
  | tail _ hstep ih =>
      obtain ⟨q, hq, rfl⟩ := hstep
      rcases hq.rows _ with ⟨hcodes, -⟩ | ⟨id, hd⟩
      · rw [hcodes]
        exact ih
      · rw [(deleteClient_rows hd).1]
        exact fun c hc => ih (List.mem_of_mem_filter hc)

/-- The row `c'` after an event, and the row `c` before it that a presentation used up. -/
structure UsedUp (st : AppState) (e : Event) (c c' : AuthorizationCode) : Prop where
  mem : c ∈ e.before.codes
  unused : c.usedAt = none
  eq : c' = { c with usedAt := some e.draws.now }
  presented : ∃ code, Presented st e code ∧ c.codeHash = st.hashToken code

theorem Token.CodeEffect.code_row {headers : HeaderMap} {pairs : List (String × String)}
    {params : Params} {client : OAuthClient} {r : Except AppError TokenResponse}
    (h : CodeEffect st e.draws client params (true ∈ e.faults) e.before r db')
    (hreq : e.req = .token headers (some pairs))
    (hl : Login st e.before (authorizationHeader headers) pairs params client)
    (hg : params.get "grant_type" = some "authorization_code") :
    ∀ c' ∈ db'.codes, c' ∈ e.before.codes ∨ ∃ c, UsedUp st e c c' := by
  have hclaim {code uri verifier : String} (hp : Presents params code uri verifier)
      (hcodes : db'.codes = e.before.codes.map (·.claim (st.hashToken code) e.draws.now)) :
      ∀ c' ∈ db'.codes, c' ∈ e.before.codes ∨ ∃ c, UsedUp st e c c' := by
    intro c' hc'
    rw [hcodes] at hc'
    obtain ⟨c, hc, rfl⟩ := List.mem_map.1 hc'
    by_cases hclaimed : c.codeHash = st.hashToken code ∧ c.usedAt = none
    · refine .inr ⟨c, hc, hclaimed.2, if_pos hclaimed, code, ?_, hclaimed.1⟩
      exact .intro headers pairs hreq params client hl hg uri verifier hp
    · rw [AuthorizationCode.claim, if_neg hclaimed]
      exact .inl hc
  cases h with
  | replayed =>
      intro c' hc'
      rw [Db.codes, Db.after_of_writes _ (by simp [Stmt.writes])] at hc'
      exact .inl hc'
  | rejected hp => exact hclaim hp (Db.after_codesClaim _ _ _)
  | redeemed hp => exact hclaim hp (Db.after_codesClaim _ _ _)
  | redeemedOffline hp =>
      refine hclaim hp ((Db.after_of_writes _ ?_).trans (Db.after_codesClaim _ _ _))
      simp [Stmt.writes]
  | _ => exact fun c' hc' => .inl hc'

/-- **Where the row of a code comes from**: it was there, perhaps unused, or it is new. -/
theorem Event.code_row (st : AppState) (e : Event) : ∀ c' ∈ (e.after st).codes,
    c' ∈ e.before.codes ∨ (∃ c, UsedUp st e c c') ∨
      ∃ i : Issuance st, i.event = e ∧ c' = i.row := by
  have heffect := e.effect st
  generalize hafter : e.after st = db' at heffect ⊢
  generalize hreq : e.req = req at heffect
  generalize e.answer st = answer at heffect
  have hkept (h : db' .codes = e.before .codes) (c' : AuthorizationCode) (hc' : c' ∈ db'.codes) :
      c' ∈ e.before.codes ∨ (∃ c, UsedUp st e c c') ∨ ∃ i : Issuance st, i.event = e ∧ c' = i.row := by
    rw [Db.codes, h] at hc'
    exact .inl hc'
  cases heffect with
  | authorize headers pairs r db' h =>
      cases h with
      | issued params hp session user hs v hv hfresh granted hgranted hscope hinsert =>
          have hcodes := Db.after_codesInsert _ hinsert
          intro c' hc'
          rw [hcodes] at hc'
          rcases List.mem_append.1 hc' with hc' | hc'
          · exact .inl hc'
          · refine .inr (.inr ⟨⟨e, headers, pairs, params, hp, session, user, hs, v, hv,
              .inl ⟨hreq, granted, hgranted, hscope⟩, ?_⟩, rfl, List.mem_singleton.1 hc'⟩)
            rw [hafter, hcodes]
            exact List.mem_append_right _ (List.mem_singleton_self _)
      | _ => exact hkept rfl
  | consent headers pairs r db' h =>
      cases h with
      | issued params hp hcsrf happroved session user hs v hv hgrant hinsert =>
          have hcodes := Db.after_codesInsert _ hinsert
          rw [Authorization.codes_grantStatement] at hcodes
          have happroval : Approval st e headers pairs params session user v := by
            refine ⟨hreq, hp, hcsrf, happroved, hs, hv, hgrant, ?_⟩
            rw [hafter]
            exact Db.after_of_writes (t := .consents) _ (by simp [Stmt.writes])
          intro c' hc'
          rw [hcodes] at hc'
          rcases List.mem_append.1 hc' with hc' | hc'
          · exact .inl hc'
          · refine .inr (.inr ⟨⟨e, headers, pairs, params, hp, session, user, hs, v, hv,
              .inr happroval, ?_⟩, rfl, List.mem_singleton.1 hc'⟩)
            rw [hafter, hcodes]
            exact List.mem_append_right _ (List.mem_singleton_self _)
      | grantedOnly => exact hkept (Authorization.codes_grantStatement _)
      | _ => exact hkept rfl
  | token headers pairs r db' h =>
      cases h with
      | code params client hl hg r db' h =>
          intro c' hc'
          rcases h.code_row hreq hl (GrantType.parse_eq_ok.1 hg) c' hc' with hc | hc
          · exact .inl hc
          · exact .inr (.inl hc)
      | refresh params client hl hg r db' h => exact hkept (h.frame (by decide))
      | _ => exact hkept rfl
  | revoke headers pairs r db' h => exact hkept (h.frame (by decide))
  | notAForm => exact hkept rfl
  | account req r db' h => exact hkept (h.frame (by decide) (by decide))
  | registry req hreq r db' h => exact fun c' hc' => .inl (h.codes_subset hc')

/-- **Every row of a code comes from an issuance of the run.** -/
theorem Run.code_origin (run : Run st es db) : ∀ c ∈ db.codes,
    ∃ i : Issuance st, i.event ∈ es ∧ c = { i.row with usedAt := c.usedAt } := by
  induction run with
  | init => exact fun c hc => absurd hc List.not_mem_nil
  | @step es db run req d faults fresh ih =>
      intro c' hc'
      have hrow := Event.code_row st ⟨req, d, faults, db, (serve st d faults req db).1⟩ c' hc'
      rcases hrow with hc | ⟨c, hc⟩ | ⟨i, hi, rfl⟩
      · obtain ⟨i, hi, heq⟩ := ih c' hc
        exact ⟨i, List.mem_cons_of_mem _ hi, heq⟩
      · obtain ⟨i, hi, heq⟩ := ih c hc.mem
        refine ⟨i, List.mem_cons_of_mem _ hi, ?_⟩
        rw [hc.eq, heq]
      · exact ⟨i, hi ▸ List.mem_cons_self, rfl⟩

theorem Run.code_drawn (run : Run st es db) : ∀ c ∈ db.codes, ∃ e ∈ es, e.draws.uuid 0 = c.id := by
  intro c hc
  obtain ⟨i, hi, heq⟩ := run.code_origin c hc
  exact ⟨i.event, hi, by rw [heq]; rfl⟩

/-- The row of an issuance, from any row with its id. -/
theorem Run.row_of_id (run : Run st es db) {i : Issuance st} (hi : i.event ∈ es)
    {c : AuthorizationCode} (hc : c ∈ db.codes) (hid : c.id = i.event.draws.uuid 0) :
    c = { i.row with usedAt := c.usedAt } := by
  obtain ⟨j, hj, heq⟩ := run.code_origin c hc
  have hjid : j.event.draws.uuid 0 = c.id := by rw [heq]; rfl
  have hevent : i.event = j.event := run.eq_of_uuid hi hj (hid.symm.trans hjid.symm)
  obtain ⟨later, earlier, rfl⟩ := List.append_of_mem hi
  obtain ⟨db', run'⟩ := run.upTo
  have hu := run'.unique
  rw [run'.cons.2.2.2] at hu
  rw [Issuance.row_eq hu hevent]
  exact heq

/-- The registries delete the codes of the clients they delete, and no others. -/
theorem Registry.code_kept (h : Registry d db db') {c : AuthorizationCode} (hc : c ∈ db.codes)
    (hnew : c.clientId ≠ d.uuid 0) (hclient : c.clientId ∈ db'.clientIds) : c ∈ db'.codes := by
  induction h with
  | refl => exact hc
  | tail _ hstep ih =>
      obtain ⟨q, hq, rfl⟩ := hstep
      have hold := (hq.clientIds _ _ hclient).resolve_right hnew
      rcases hq.rows _ with ⟨hcodes, -⟩ | ⟨id, hd⟩
      · rw [hcodes]
        exact ih hold
      · rw [(deleteClient_rows hd).1, List.mem_filter]
        refine ⟨ih hold, ?_⟩
        obtain ⟨client, hmem, hid⟩ := List.mem_map.1 hclient
        rw [(deleteClient_clients hd).1, List.mem_filter] at hmem
        rw [← hid]
        exact hmem.2

theorem TokenChange.code_kept (h : TokenChange st d db db') {c : AuthorizationCode}
    (hc : c ∈ db.codes) (hnew : c.clientId ≠ d.uuid 0) (hclient : c.clientId ∈ db'.clientIds) :
    ∃ c' ∈ db'.codes, c'.id = c.id := by
  have hclaim (codeHash : String) (hcodes : db'.codes = db.codes.map (·.claim codeHash d.now)) :
      ∃ c' ∈ db'.codes, c'.id = c.id := by
    rw [hcodes]
    refine ⟨_, List.mem_map_of_mem hc, ?_⟩
    rw [AuthorizationCode.claim]
    split_ifs <;> rfl
  cases h with
  | issued new db' hcodes htokens =>
      rw [hcodes]
      exact ⟨c, List.mem_append_left _ hc, rfl⟩
  | claimed codeHash db' hcodes htokens => exact hclaim _ hcodes
  | born client record codeHash hu db' hcodes htokens hrow => exact hclaim _ hcodes
  | rotated client record hmem hok db' hcodes htokens hrow =>
      rw [hcodes]
      exact ⟨c, hc, rfl⟩
  | revoked p hp db' hcodes htokens =>
      rw [hcodes]
      exact ⟨c, hc, rfl⟩
  | registry db' hr => exact ⟨c, hr.code_kept hc hnew hclient, rfl⟩

/-- The client of an issuance was registered before. -/
theorem Run.issuance_client_drawn (run : Run st es db) {i : Issuance st} (hi : i.event ∈ es) :
    ∃ e ∈ es, ∃ k, e.draws.uuid k = i.validated.client.id := by
  obtain ⟨later, earlier, rfl⟩ := List.append_of_mem hi
  obtain ⟨db', run'⟩ := run.upTo
  obtain ⟨e, he, k, hk⟩ := run'.cons.1.client_drawn _ (List.mem_map_of_mem i.valid.redirectable.mem)
  exact ⟨e, List.mem_append_right _ (List.mem_cons_of_mem _ he), k, hk⟩

/-- **The row of a code stays as long as its client.** -/
theorem Run.code_kept (run : Run st es db) : ∀ i : Issuance st, i.event ∈ es →
    i.validated.client.id ∈ db.clientIds → ∃ c ∈ db.codes, c.id = i.event.draws.uuid 0 := by
  induction run with
  | init => exact fun i hi => absurd hi List.not_mem_nil
  | @step es db run req d faults fresh ih =>
      intro i hi hclient
      rcases List.mem_cons.1 hi with hi | hi
      · have hstored := i.stored
        rw [hi] at hstored
        refine ⟨_, hstored, ?_⟩
        rw [hi]
        rfl
      · have heffect := serve_effect st d faults req db
        obtain ⟨e, he, k, hk⟩ := run.issuance_client_drawn hi
        have hnew : i.validated.client.id ≠ d.uuid 0 := fun h => fresh.uuid_new e he k 0 (hk.trans h)
        have hold := (heffect.clientIds _ hclient).resolve_right hnew
        obtain ⟨c, hc, hid⟩ := ih i hi hold
        have hcclient : c.clientId = i.validated.client.id := by
          rw [run.row_of_id hi hc hid]
          rfl
        rw [← hcclient] at hnew hclient
        obtain ⟨c', hc', hid'⟩ := heffect.tokenChange.code_kept hc hnew hclient
        exact ⟨c', hc', hid'.trans hid⟩

end codes

end SharpOauth
