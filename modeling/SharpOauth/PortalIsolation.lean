import SharpOauth.ConsentPage
import SharpOauth.FormResubmission
import SharpOauth.RefreshIsolation

/-! # The applications of others

A request to the developer portal reaches a client row through a lookup that asks for the owner,
and writes to it by its primary key.  So the rows of other owners stay, with all that depends on
them (`ForeignKept`, `RegistryEffect.foreignKept`): a deletion is followed through the foreign keys,
which never cross from one client to another (`CodeLinks`).

The other way round, the requests of a user run in lockstep on two states that have the same
applications of the user (`SamePortal`), whatever other applications there are: the responses are
the same (`portal_isolation`). -/

namespace SharpOauth

open Token

/-! ### Codes of refresh tokens -/

/-- The code of a refresh token was issued to its client. -/
def CodeLinks (db : Db) : Prop := ∀ t ∈ db.refreshTokens, ∀ code, t.authorizationCodeId = some code →
  ∃ c ∈ db.codes, c.id = code ∧ c.clientId = t.clientId

section links

variable {st : AppState} {es : List Event} {d : Draws} {db db' : Db}

/-- The tokens keep their codes, which stay. -/
theorem CodeLinks.keep (h : CodeLinks db)
    (hcodes : ∀ c ∈ db.codes, ∃ c' ∈ db'.codes, c'.id = c.id ∧ c'.clientId = c.clientId)
    (htokens : ∀ t' ∈ db'.refreshTokens, ∀ code, t'.authorizationCodeId = some code →
      (∃ t ∈ db.refreshTokens, t.authorizationCodeId = some code ∧ t.clientId = t'.clientId) ∨
        ∃ c ∈ db.codes, c.id = code ∧ c.clientId = t'.clientId) : CodeLinks db' := by
  intro t' ht' code hcode
  have hold : ∃ c ∈ db.codes, c.id = code ∧ c.clientId = t'.clientId := by
    cases htokens t' ht' code hcode with
    | inl ht =>
        obtain ⟨t, ht, htcode, hclient⟩ := ht
        rw [← hclient]
        exact h t ht code htcode
    | inr hc => exact hc
  obtain ⟨c, hc, hid, hclient⟩ := hold
  obtain ⟨c', hc', hid', hclient'⟩ := hcodes c hc
  exact ⟨c', hc', hid'.trans hid, hclient'.trans hclient⟩

/-- Deleting a client unlinks its codes. -/
theorem CodeLinks.delete (h : CodeLinks db) {id : Uuid} (hd : deleteClient id db = some db') :
    CodeLinks db' := by
  obtain ⟨hcodes, htokens⟩ := deleteClient_rows hd
  intro t' ht' code hcode
  rw [htokens] at ht'
  obtain ⟨t, ht, rfl⟩ := List.mem_map.1 ht'
  obtain ⟨ht, hclient⟩ := List.mem_filter.1 ht
  split_ifs at hcode with hdeleted
  rw [if_neg hdeleted]
  obtain ⟨c, hc, hid, hlink⟩ := h t ht code hcode
  refine ⟨c, ?_, hid, hlink⟩
  rw [hcodes, List.mem_filter, hlink]
  exact ⟨hc, hclient⟩

theorem CodeLinks.revoke (h : CodeLinks db) {p : RefreshToken → Bool}
    (hcodes : db' .codes = db .codes) (htokens : db'.refreshTokens = db.refreshTokens.map (·.revokeIf p d.now)) :
    CodeLinks db' := by
  refine h.keep (fun c hc => ⟨c, ?_, rfl, rfl⟩) fun t' ht' code hcode => ?_
  · rwa [Db.codes, hcodes]
  · rw [htokens] at ht'
    obtain ⟨t, ht, rfl⟩ := List.mem_map.1 ht'
    rw [RefreshToken.revokeIf] at hcode ⊢
    refine .inl ⟨t, ht, ?_⟩
    split_ifs at hcode ⊢ <;> exact ⟨hcode, rfl⟩

theorem CodeLinks.registry (h : CodeLinks db) (hr : Registry d db db') : CodeLinks db' := by
  induction hr with
  | refl => exact h
  | tail _ hstep ih =>
      obtain ⟨q, hq, rfl⟩ := hstep
      rcases hq.rows _ with ⟨hcodes, htokens⟩ | ⟨id, hd⟩
      · intro t ht
        rw [htokens] at ht
        rw [hcodes]
        exact ih t ht
      · exact ih.delete hd

/-- What exchanges and revocations do to the tokens. -/
theorem TokenEffect.codeLinks {header : Option String} {pairs : List (String × String)} {flaky : Prop}
    {r : Except AppError TokenResponse} (he : TokenEffect st d header pairs flaky db r db')
    (h : CodeLinks db) : CodeLinks db' := by
  have hclaimed (codeHash : String) :
      ∀ c ∈ db.codes, ∃ c' ∈ (db.after (.codesClaim codeHash d.now)).codes,
        c'.id = c.id ∧ c'.clientId = c.clientId := by
    intro c hc
    rw [Db.after_codesClaim]
    refine ⟨_, List.mem_map_of_mem hc, ?_⟩
    rw [AuthorizationCode.claim]
    split_ifs <;> exact ⟨rfl, rfl⟩
  have hclaim (codeHash : String) : (db.after (.codesClaim codeHash d.now)).refreshTokens =
      db.refreshTokens := db.after_of_writes (by simp [Stmt.writes])
  cases he with
  | failed => exact h
  | refused => exact h
  | code params client hl hg r db' he =>
      cases he with
      | replayed =>
          exact h.revoke (db.after_of_writes (by simp [Stmt.writes]))
            (Db.after_tokensRevokeByAuthorizationCode _ _ _)
      | rejected => exact h.keep (hclaimed _) fun t ht code hcode => .inl ⟨t, hclaim _ ▸ ht, hcode, rfl⟩
      | redeemed => exact h.keep (hclaimed _) fun t ht code hcode => .inl ⟨t, hclaim _ ▸ ht, hcode, rfl⟩
      | redeemedOffline hp record hu hb scope hscope hoffline response hsigned hinsert =>
          refine h.keep (fun c hc => ?_) fun t ht code hcode => ?_
          · rw [Db.codes, Db.after_of_writes _ (by simp [Stmt.writes])]
            exact hclaimed _ c hc
          · rw [Db.after_tokensInsert _ hinsert, List.mem_append, List.mem_singleton, hclaim] at ht
            cases ht with
            | inl ht => exact .inl ⟨t, ht, hcode, rfl⟩
            | inr ht =>
                rw [ht] at hcode ⊢
                refine .inr ⟨record, hu.mem, Option.some.inj hcode, ?_⟩
                exact (checkCodeBindings_ok_iff.1 hb).1
      | _ => exact h
  | refresh params client hl hg r db' he =>
      cases he with
      | replayed =>
          exact h.revoke (db.after_of_writes (by simp [Stmt.writes])) (Db.after_tokensRevokeFamily _ _ _)
      | refreshed hraw record hf hok requested hrequested granted scope hgranted hscope response hsigned
          hinsert =>
          refine h.keep (fun c hc => ⟨c, ?_, rfl, rfl⟩) fun t ht code hcode => ?_
          · rw [Db.codes, Db.after_of_writes _ (by simp [Stmt.writes]),
              Db.after_of_writes _ (by simp [Stmt.writes])]
            exact hc
          · rw [Db.after_tokensMarkRotated, Db.after_tokensInsert _ hinsert] at ht
            obtain ⟨u, hu, rfl⟩ := List.mem_map.1 ht
            have hsame : (u.rotate record.id (nextToken st d client record).id).authorizationCodeId =
                u.authorizationCodeId ∧ (u.rotate record.id (nextToken st d client record).id).clientId =
                u.clientId := by
              rw [RefreshToken.rotate]
              split_ifs <;> exact ⟨rfl, rfl⟩
            rw [hsame.1] at hcode
            rw [hsame.2]
            rw [List.mem_append, List.mem_singleton] at hu
            cases hu with
            | inl hu => exact .inl ⟨u, hu, hcode, rfl⟩
            | inr hu =>
                rw [hu] at hcode ⊢
                exact .inl ⟨record, hf.mem, hcode, (checkUsable_ok hok).1⟩
      | _ => exact h

theorem Event.codeLinks (st : AppState) (e : Event) (h : CodeLinks e.before) :
    CodeLinks (e.after st) := by
  have heffect := e.effect st
  generalize e.after st = db' at heffect ⊢
  generalize e.req = req at heffect
  generalize e.answer st = answer at heffect
  have hissued (htokens : db' .refreshTokens = e.before .refreshTokens)
      (hcodes : ∀ c ∈ e.before.codes, c ∈ db'.codes) : CodeLinks db' := by
    refine h.keep (fun c hc => ⟨c, hcodes c hc, rfl, rfl⟩) fun t ht code hcode => ?_
    rw [Db.refreshTokens, htokens] at ht
    exact .inl ⟨t, ht, hcode, rfl⟩
  cases heffect with
  | authorize headers pairs r db' he =>
      refine hissued (he.frame (by decide)) fun c hc => ?_
      cases he with
      | issued params hp session user hs v hv hfresh granted hgranted hscope hinsert =>
          rw [Db.after_codesInsert _ hinsert]
          exact List.mem_append_left _ hc
      | _ => exact hc
  | consent headers pairs r db' he =>
      refine hissued (he.frame (by decide) (by decide)) fun c hc => ?_
      have hgrant (userId clientId : Uuid) (scopes : ScopeSet) : (e.before.after
          (e.before.grantStatement userId clientId e.draws scopes)).codes = e.before.codes :=
        Authorization.codes_grantStatement _
      cases he with
      | grantedOnly => rwa [hgrant]
      | issued params hp hcsrf happroved session user hs v hv hg hinsert =>
          rw [Db.after_codesInsert _ hinsert, hgrant]
          exact List.mem_append_left _ hc
      | _ => exact hc
  | token headers pairs r db' he => exact he.codeLinks h
  | revoke headers pairs r db' he =>
      cases he with
      | revoked =>
          exact h.revoke (e.before.after_of_writes (by simp [Stmt.writes]))
            (Db.after_tokensRevokeFamily _ _ _)
      | _ => exact h
  | notAForm => exact h
  | account req r db' he =>
      refine hissued (he.frame (by decide) (by decide)) fun c hc => ?_
      rwa [Db.codes, he.frame (by decide) (by decide)]
  | registry req hreq r db' hr => exact h.registry hr

theorem Run.codeLinks (run : Run st es db) : CodeLinks db := by
  induction run with
  | init => exact fun t ht => absurd ht List.not_mem_nil
  | @step es db run req d faults fresh ih =>
      exact Event.codeLinks st ⟨req, d, faults, db, (serve st d faults req db).1⟩ ih

end links

/-! ### The rows of other owners -/

/-- The client rows of other owners, and what depends on them, are as they were. -/
structure ForeignKept (owner : Uuid) (db db' : Db) : Prop where
  clients : db'.clients.filter (fun c => c.ownerUserId ≠ some owner) =
    db.clients.filter fun c => c.ownerUserId ≠ some owner
  codes : ∀ c ∈ db.clients, c.ownerUserId ≠ some owner →
    db'.codes.filter (fun r => r.clientId = c.id) = db.codes.filter fun r => r.clientId = c.id
  consents : ∀ c ∈ db.clients, c.ownerUserId ≠ some owner →
    db'.consents.filter (fun r => r.clientId = c.id) = db.consents.filter fun r => r.clientId = c.id
  refreshTokens : ∀ c ∈ db.clients, c.ownerUserId ≠ some owner →
    db'.refreshTokens.filter (fun r => r.clientId = c.id) =
      db.refreshTokens.filter fun r => r.clientId = c.id

/-- The headers of a request to the developer portal. -/
def Request.portal? : Request → Option HeaderMap
  | .appList headers _ _ => some headers
  | .appNew headers _ => some headers
  | .appCreate headers _ => some headers
  | .appShow headers _ _ _ => some headers
  | .appUpdate headers _ _ => some headers
  | .appRotateSecret headers _ _ => some headers
  | .appDelete headers _ _ => some headers
  | _ => none

section foreign

variable {st : AppState} {es : List Event} {d : Draws} {db db' : Db} {req : Request}
  {headers : HeaderMap} {session session' : Session} {user user' : User} {clientId : String}
  {app : OAuthClient}

/-- A browser has one session at most. -/
theorem SignedIn.eq (hu : db.Unique) (h : SignedIn st.toCrates d headers db session user)
    (h' : SignedIn st.toCrates d headers db session' user') : session' = session ∧ user' = user := by
  obtain ⟨value, hcookie, hhash⟩ := h.cookie
  obtain ⟨value', hcookie', hhash'⟩ := h'.cookie
  obtain rfl : value' = value := Option.some.inj (hcookie'.symm.trans hcookie)
  obtain rfl : session' = session :=
    hu.eq (t := .sessions) h'.mem h.mem (by simp [clash, hhash, hhash'])
  exact ⟨rfl, hu.eq (t := .users) h'.user_mem h.user_mem (by simp [clash, h'.user_id, h.user_id])⟩

theorem ForeignKept.refl (owner : Uuid) (db : Db) : ForeignKept owner db db :=
  ⟨rfl, fun _ _ _ => rfl, fun _ _ _ => rfl, fun _ _ _ => rfl⟩

/-- A change of the clients alone. -/
theorem ForeignKept.of_clients {owner : Uuid} {q : Stmt} (hq : q.writes = [.clients])
    (h : (db.after q).clients.filter (fun c => c.ownerUserId ≠ some owner) =
      db.clients.filter fun c => c.ownerUserId ≠ some owner) : ForeignKept owner db (db.after q) := by
  have hkept (t : Table) (ht : t ≠ .clients) : db.after q t = db t :=
    db.after_of_writes (by simp [hq, ht])
  refine ⟨h, fun c _ _ => ?_, fun c _ _ => ?_, fun c _ _ => ?_⟩
  · rw [Db.codes, hkept _ (by decide)]
  · rw [Db.consents, hkept _ (by decide)]
  · rw [Db.refreshTokens, hkept _ (by decide)]

/-- The primary key of an application is that of no client of another owner. -/
theorem Owned.id_ne (h : Owned db user clientId app) (hu : db.Unique) {c : OAuthClient}
    (hc : c ∈ db.clients) (howner : c.ownerUserId ≠ some user.id) : c.id ≠ app.id := by
  intro hid
  obtain rfl : c = app := hu.eq (t := .clients) hc h.mem (by simp [clash, hid])
  exact howner h.owner

/-- An update of an application. -/
theorem Owned.filter_update (h : Owned db user clientId app) (hu : db.Unique)
    {f : OAuthClient → OAuthClient} (hf : ∀ c, (f c).ownerUserId = c.ownerUserId) :
    (db.clients.map fun c => if c.id = app.id then f c else c).filter
        (fun c => c.ownerUserId ≠ some user.id) =
      db.clients.filter fun c => c.ownerUserId ≠ some user.id := by
  refine filter_map_fixed (fun c _ => ?_) fun c hc howner => ?_
  · split_ifs
    · rw [hf]
    · rfl
  · rw [if_neg (h.id_ne hu hc (by simpa using howner))]

/-- A filter that the other rows pass. -/
theorem filter_client_ne {α : Type} {rows : List α} {f : α → Uuid} {id id' : Uuid} (h : id' ≠ id) :
    (rows.filter fun r => f r ≠ id).filter (fun r => f r = id') = rows.filter fun r => f r = id' := by
  rw [List.filter_filter]
  refine List.filter_congr fun r _ => ?_
  by_cases hr : f r = id' <;> simp [hr, h]

/-- A deletion follows the foreign keys of one client. -/
theorem Owned.delete (h : Owned db user clientId app) (hu : db.Unique) (hlinks : CodeLinks db)
    (hd : deleteClient app.id db = some db') : ForeignKept user.id db db' := by
  obtain ⟨hcodes, htokens⟩ := deleteClient_rows hd
  obtain ⟨hclients, hconsents⟩ := deleteClient_clients hd
  refine ⟨?_, fun c hc howner => ?_, fun c hc howner => ?_, fun c hc howner => ?_⟩
  · rw [hclients, List.filter_filter]
    refine List.filter_congr fun c hc => ?_
    by_cases howner : c.ownerUserId = some user.id
    · simp [howner]
    · simp [howner, h.id_ne hu hc howner]
  · rw [hcodes, filter_client_ne (f := AuthorizationCode.clientId) (h.id_ne hu hc howner)]
  · rw [hconsents, filter_client_ne (f := OAuthConsent.clientId) (h.id_ne hu hc howner)]
  · rw [htokens, filter_map_fixed, filter_client_ne (f := RefreshToken.clientId) (h.id_ne hu hc howner)]
    · intro t _
      split_ifs <;> rfl
    · intro t ht hclient
      rw [if_neg]
      -- Its code would be one of both clients.
      intro hcode
      obtain ⟨c', hc', hcode⟩ := List.any_eq_true.1 hcode
      obtain ⟨hc', hid⟩ := List.mem_filter.1 hc'
      obtain ⟨r, hr, hrid, hrclient⟩ := hlinks t (List.mem_filter.1 ht).1 c'.id (by simpa using hcode)
      obtain rfl : r = c' := hu.eq (t := .codes) hr hc' (by simp [clash, hrid])
      refine h.id_ne hu hc howner ?_
      rw [decide_eq_true_eq] at hclient hid
      rw [← hclient, ← hrclient, hid]

/-- **A request to the portal leaves the rows of other owners alone.** -/
theorem RegistryEffect.foreignKept (h : RegistryEffect st d db req db') (hu : db.Unique)
    (hlinks : CodeLinks db) (hreq : req.portal? = some headers)
    (hs : SignedIn st.toCrates d headers db session user) : ForeignKept user.id db db' := by
  cases h with
  | unchanged => exact .refl _ _
  | scopeAdded scope => cases hreq
  | registered req new hnew details hdetails hinsert =>
      refine .of_clients rfl ?_
      have howner : new.ownerUserId = some user.id := by
        cases hnew with
        | commandLine => cases hreq
        | portal headers' pairs session' user' hs' =>
            obtain rfl := Option.some.inj hreq
            rw [(hs.eq hu hs').2]
      rw [after_clientsInsert_ok hinsert, List.filter_append]
      simp [Client.newRow, howner]
  | updated headers' clientId pairs session' user' app hm raw details hdetails =>
      obtain rfl := Option.some.inj hreq
      obtain rfl := (hs.eq hu hm.signedIn).2
      refine .of_clients rfl ?_
      rw [Db.after_clientsUpdateDetails]
      exact hm.owned.filter_update hu fun _ => rfl
  | rotated headers' clientId pairs session' user' app hm hconfidential =>
      obtain rfl := Option.some.inj hreq
      obtain rfl := (hs.eq hu hm.signedIn).2
      refine .of_clients rfl ?_
      rw [Db.after_clientsUpdateSecretHash]
      exact hm.owned.filter_update hu fun _ => rfl
  | deleted headers' clientId pairs session' user' app hm =>
      obtain rfl := Option.some.inj hreq
      obtain rfl := (hs.eq hu hm.signedIn).2
      cases db.after_clientsDelete app.id with
      | inl hsame =>
          rw [hsame]
          exact .refl _ _
      | inr hd => exact hm.owned.delete hu hlinks hd

end foreign

/-! ### The applications of one owner -/

/-- The applications of `owner`, in the order they were registered. -/
def Db.appsOf (db : Db) (owner : Uuid) : List OAuthClient :=
  db.clients.filter fun c => c.ownerUserId = some owner

/-- The tables agree on what the portal shows to `owner`. -/
structure SamePortal (owner : Uuid) (db db' : Db) : Prop where
  users : db'.users = db.users
  sessions : db'.sessions = db.sessions
  scopes : db'.scopes = db.scopes
  apps : db'.appsOf owner = db.appsOf owner

/-- The identifiers drawn for a new application are those of nobody else's client. -/
def NewIds (d : Draws) (owner : Uuid) (db : Db) : Prop :=
  ∀ c ∈ db.clients, c.ownerUserId ≠ some owner →
    c.id ≠ d.uuid 0 ∧ c.clientId ≠ Client.newClientId (d.secret 0)

/-- A rotated token and its successor were issued to one client. -/
def Db.TokensLinked (db : Db) : Prop := ∀ t ∈ db.refreshTokens, ∀ t' ∈ db.refreshTokens,
  t.rotatedToId = some t'.id → t.clientId = t'.clientId

section owner

variable {st : AppState} {es : List Event} {d : Draws} {owner : Uuid} {db db' : Db} {q : Stmt}

theorem Run.tokensLinked (run : Run st es db) : db.TokensLinked := by
  intro t ht t' ht' hnext
  have hfamilies := run.familyInv.families
  obtain ⟨l, hl⟩ := hfamilies.chain t ht
  obtain ⟨y, hy, hid⟩ := hl.linked.exists_next ((hl.mem_iff t).2 ⟨ht, rfl⟩) hnext
  obtain ⟨hy, hfamily⟩ := (hl.mem_iff y).1 hy
  obtain rfl : y = t' := run.unique.eq (t := .refreshTokens) hy ht' (by simp [clash, hid])
  exact (hfamilies.sameGrant t ht y hy hfamily.symm).clientId

/-- So a client can be deleted. -/
theorem Db.TokensLinked.delete (h : db.TokensLinked) (id : Uuid) :
    deleteClient id db = some (db.after (.clientsDelete id)) := by
  rw [Db.after, sem, Sql.exec]
  cases hd : deleteClient id db with
  | some db' => rfl
  | none =>
      rw [deleteClient] at hd
      split_ifs at hd with hlinked
      obtain ⟨t, ht, hnext⟩ := List.any_eq_true.1 hlinked
      obtain ⟨t', ht', hnext⟩ := List.any_eq_true.1 hnext
      rw [decide_eq_true_eq] at hnext
      obtain ⟨ht, hother⟩ := List.mem_filter.1 ht
      obtain ⟨ht', hclient⟩ := List.mem_filter.1 ht'
      rw [decide_eq_true_eq] at hother hclient
      exact absurd ((h t ht t' ht' hnext).trans hclient) hother

/-- The portal never cuts a chain in two. -/
theorem Db.TokensLinked.after (h : db.TokensLinked) (hq : q.Registers d) :
    (db.after q).TokensLinked := by
  rcases hq.rows db with ⟨-, htokens⟩ | ⟨id, hd⟩
  · rwa [Db.TokensLinked, htokens]
  · obtain ⟨-, htokens⟩ := deleteClient_rows hd
    have hold : ∀ t ∈ (db.after q).refreshTokens, ∃ u ∈ db.refreshTokens,
        t.id = u.id ∧ t.clientId = u.clientId ∧ t.rotatedToId = u.rotatedToId := by
      intro t ht
      rw [htokens] at ht
      obtain ⟨u, hu, rfl⟩ := List.mem_map.1 ht
      refine ⟨u, (List.mem_filter.1 hu).1, ?_⟩
      split_ifs <;> exact ⟨rfl, rfl, rfl⟩
    intro t ht t' ht' hnext
    obtain ⟨u, hu, -, hclient, hrotated⟩ := hold t ht
    obtain ⟨u', hu', hid, hclient', -⟩ := hold t' ht'
    rw [hclient, hclient']
    exact h u hu u' hu' (by rw [← hrotated, hnext, hid])

/-- The clients after a statement of the portal: those of others are old ones. -/
theorem NewIds.after (h : NewIds d owner db) (hq : q.Manages d (some owner)) :
    NewIds d owner (db.after q) := by
  have hold (f : OAuthClient → OAuthClient)
      (hf : ∀ c, (f c).id = c.id ∧ (f c).clientId = c.clientId ∧ (f c).ownerUserId = c.ownerUserId)
      (hclients : (db.after q).clients = db.clients.map f) : NewIds d owner (db.after q) := by
    intro c hc howner
    rw [hclients] at hc
    obtain ⟨c₀, hc₀, rfl⟩ := List.mem_map.1 hc
    rw [(hf c₀).2.2] at howner
    rw [(hf c₀).1, (hf c₀).2.1]
    exact h c₀ hc₀ howner
  cases hq with
  | clientsInsert client hid hclientId howner =>
      intro c hc hother
      rcases db.after_clientsInsert client with hclients | hclients
      · rw [hclients] at hc
        exact h c hc hother
      · rw [hclients, List.mem_append, List.mem_singleton] at hc
        rcases hc with hc | rfl
        · exact h c hc hother
        · exact absurd howner hother
  | clientsUpdateDetails id name redirectUris allowedScopes now =>
      refine hold _ (fun c => ?_) (Db.after_clientsUpdateDetails ..)
      split_ifs <;> exact ⟨rfl, rfl, rfl⟩
  | clientsUpdateSecretHash id secretHash now =>
      refine hold _ (fun c => ?_) (Db.after_clientsUpdateSecretHash ..)
      split_ifs <;> exact ⟨rfl, rfl, rfl⟩
  | clientsDelete id =>
      rcases db.after_clientsDelete id with hsame | hd
      · rwa [hsame]
      · intro c hc howner
        rw [(deleteClient_clients hd).1] at hc
        exact h c (List.mem_filter.1 hc).1 howner
  | _ => rwa [db.after_of_reads rfl]

/-- Nobody else's client is in the way of a new application. -/
theorem NewIds.any_clash (h : NewIds d owner db) {client : OAuthClient} (hid : client.id = d.uuid 0)
    (hclientId : client.clientId = Client.newClientId (d.secret 0)) :
    db.clients.any (clash .clients client) = (db.appsOf owner).any (clash .clients client) := by
  rw [Db.appsOf, List.any_filter, Bool.eq_iff_iff, List.any_eq_true, List.any_eq_true]
  refine exists_congr fun c => and_congr_right fun hc => ?_
  rw [Bool.and_eq_true, decide_eq_true_eq]
  refine ⟨fun hclash => ⟨?_, hclash⟩, fun hclash => hclash.2⟩
  by_contra howner
  obtain ⟨hne, hne'⟩ := h c hc howner
  simp [clash, hid, hclientId, hne.symm, hne'.symm] at hclash

/-- The portal writes to no other table that it reads. -/
theorem SamePortal.after (h : SamePortal owner db db') (hq : q.Manages d (some owner))
    (happs : (db'.after q).appsOf owner = (db.after q).appsOf owner) :
    SamePortal owner (db.after q) (db'.after q) := by
  have hwrites : .users ∉ q.writes ∧ .sessions ∉ q.writes ∧ .scopes ∉ q.writes := by
    cases hq <;> simp [Stmt.writes]
  refine ⟨?_, ?_, ?_, happs⟩
  · rw [Db.users, Db.users, db.after_of_writes hwrites.1, db'.after_of_writes hwrites.1]
    exact h.users
  · rw [Db.sessions, Db.sessions, db.after_of_writes hwrites.2.1, db'.after_of_writes hwrites.2.1]
    exact h.sessions
  · rw [Db.scopes, Db.scopes, db.after_of_writes hwrites.2.2, db'.after_of_writes hwrites.2.2]
    exact h.scopes

theorem Db.appsOf_map {f : OAuthClient → OAuthClient} (hf : ∀ c, (f c).ownerUserId = c.ownerUserId)
    (hclients : db'.clients = db.clients.map f) : db'.appsOf owner = (db.appsOf owner).map f := by
  rw [Db.appsOf, hclients, List.filter_map, Db.appsOf]
  simp only [Function.comp_def, hf]

theorem Db.appsOf_delete {id : Uuid} (h : deleteClient id db = some db') :
    db'.appsOf owner = (db.appsOf owner).filter fun c => c.id ≠ id := by
  rw [Db.appsOf, (deleteClient_clients h).1, List.filter_filter, Db.appsOf, List.filter_filter]
  simp only [Bool.and_comm]

/-- **One statement of the portal.**  What it answers and does to the applications of the owner
depends on these applications alone. -/
theorem SamePortal.step (h : SamePortal owner db db') (hnew : NewIds d owner db)
    (hnew' : NewIds d owner db') (hlinked : db.TokensLinked) (hlinked' : db'.TokensLinked)
    (hq : q.Manages d (some owner)) :
    db.result q = db'.result q ∧ SamePortal owner (db.after q) (db'.after q) := by
  have hread (hreads : q.writes = []) : SamePortal owner (db.after q) (db'.after q) := by
    rwa [db.after_of_reads hreads, db'.after_of_reads hreads]
  have hafter := h.after hq
  have hmapped (f : OAuthClient → OAuthClient) (hf : ∀ c, (f c).ownerUserId = c.ownerUserId)
      (hclients : ∀ s : Db, (s.after q).clients = s.clients.map f) :
      SamePortal owner (db.after q) (db'.after q) := by
    refine hafter ?_
    rw [Db.appsOf_map hf (hclients db'), Db.appsOf_map hf (hclients db), h.apps]
  have happs := h.apps
  rw [Db.appsOf, Db.appsOf] at happs
  cases hq with
  | scopesListAll =>
      refine ⟨?_, hread rfl⟩
      simp [Db.result, sem, Sql.exec, h.scopes]
  | scopesFindByNames names =>
      refine ⟨?_, hread rfl⟩
      simp [Db.result, sem, Sql.exec, h.scopes]
  | clientsListByOwner id hid =>
      obtain rfl := Option.some.inj hid
      refine ⟨?_, hread rfl⟩
      simp only [Db.result, sem, Sql.exec, happs]
  | clientsCountByOwner id hid =>
      obtain rfl := Option.some.inj hid
      refine ⟨?_, hread rfl⟩
      simp only [Db.result, sem, Sql.exec, List.countP_eq_length_filter, happs]
  | clientsFindOwned id clientId hid =>
      obtain rfl := Option.some.inj hid
      refine ⟨?_, hread rfl⟩
      have hfind (s : Db) : s.result (.clientsFindOwned owner clientId) =
          .ok ((s.appsOf owner).find? fun c => c.clientId = clientId) := by
        rw [Db.appsOf, List.find?_filter]
        simp [Db.result, sem, Sql.exec, and_comm]
      rw [hfind, hfind, h.apps]
  | clientsInsert client hid hclientId howner =>
      have hany : db.clients.any (clash .clients client) = db'.clients.any (clash .clients client) := by
        rw [hnew.any_clash hid hclientId, hnew'.any_clash hid hclientId, h.apps]
      have hresult : db.result (.clientsInsert client) = db'.result (.clientsInsert client) := by
        rw [Db.result, Db.result, sem, Sql.exec, Sql.exec, hany]
        split_ifs <;> rfl
      refine ⟨hresult, ?_⟩
      cases hinsert : db.result (.clientsInsert client) with
      | error e =>
          rwa [Db.after_of_error hinsert, Db.after_of_error (hresult.symm.trans hinsert)]
      | ok u =>
          refine hafter ?_
          rw [Db.appsOf, Db.appsOf, after_clientsInsert_ok hinsert,
            after_clientsInsert_ok (hresult.symm.trans hinsert), List.filter_append,
            List.filter_append, happs]
  | clientsUpdateDetails id name redirectUris allowedScopes now =>
      refine ⟨rfl, hmapped _ (fun c => ?_) fun s => s.after_clientsUpdateDetails ..⟩
      split_ifs <;> rfl
  | clientsUpdateSecretHash id secretHash now =>
      refine ⟨rfl, hmapped _ (fun c => ?_) fun s => s.after_clientsUpdateSecretHash ..⟩
      split_ifs <;> rfl
  | clientsDelete id =>
      have hd := hlinked.delete id
      have hd' := hlinked'.delete id
      refine ⟨?_, hafter ?_⟩
      · simp only [Db.result, sem, Sql.exec, hd, hd']
      · rw [Db.appsOf_delete hd, Db.appsOf_delete hd', h.apps]

/-- Two databases that the owner cannot tell apart, now or after the request. -/
structure Twins (d : Draws) (owner : Uuid) (db db' : Db) : Prop where
  same : SamePortal owner db db'
  newIds : NewIds d owner db
  newIds' : NewIds d owner db'
  linked : db.TokensLinked
  linked' : db'.TokensLinked

theorem Twins.step (h : Twins d owner db db') (hq : q.Manages d (some owner)) :
    db.result q = db'.result q ∧ Twins d owner (db.after q) (db'.after q) := by
  obtain ⟨hresult, hsame⟩ := h.same.step h.newIds h.newIds' h.linked h.linked' hq
  exact ⟨hresult, hsame, h.newIds.after hq, h.newIds'.after hq, h.linked.after hq.registers,
    h.linked'.after hq.registers⟩

end owner

/-! ### The pages -/

/-- The application a request is about. -/
def Request.appId? : Request → Option String
  | .appShow _ _ clientId _ => some clientId
  | .appUpdate _ clientId _ => some clientId
  | .appRotateSecret _ clientId _ => some clientId
  | .appDelete _ clientId _ => some clientId
  | _ => none

section pages

variable {st : AppState} {d : Draws} {db db' : Db} {req : Request} {headers : HeaderMap}
  {session : Session} {user : User} {clientId : String}

theorem registers_of_portal (hreq : req.portal? = some headers) : req.Registers := by
  cases req with
  | appList headers' path notice => exact .appList headers' path notice
  | appNew headers' path => exact .appNew headers' path
  | appCreate headers' pairs => exact .appCreate headers' pairs
  | appShow headers' path clientId notice => exact .appShow headers' path clientId notice
  | appUpdate headers' clientId pairs => exact .appUpdate headers' clientId pairs
  | appRotateSecret headers' clientId pairs => exact .appRotateSecret headers' clientId pairs
  | appDelete headers' clientId pairs => exact .appDelete headers' clientId pairs
  | _ => cases hreq

/-- Every page of the portal is one of these programs. -/
theorem respond_own (st : AppState) (d : Draws) (hreq : req.portal? = some headers) :
    ∃ p, respond st d req = orInternalError p ∧ Apps.OwnPage st d headers p := by
  cases req with
  | appList headers' path notice =>
      obtain rfl := Option.some.inj hreq
      exact ⟨_, rfl, Apps.listPage_own st d headers' path notice⟩
  | appNew headers' path =>
      obtain rfl := Option.some.inj hreq
      exact ⟨_, rfl, Apps.newPage_own st d headers' path⟩
  | appCreate headers' pairs =>
      obtain rfl := Option.some.inj hreq
      exact ⟨_, rfl, Apps.createPage_own st d headers' pairs⟩
  | appShow headers' path clientId notice =>
      obtain rfl := Option.some.inj hreq
      exact ⟨_, rfl, Apps.showPage_own st d headers' path clientId notice⟩
  | appUpdate headers' clientId pairs =>
      obtain rfl := Option.some.inj hreq
      exact ⟨_, rfl, Apps.updatePage_own st d headers' clientId pairs⟩
  | appRotateSecret headers' clientId pairs =>
      obtain rfl := Option.some.inj hreq
      exact ⟨_, rfl, Apps.rotateSecretPage_own st d headers' clientId pairs⟩
  | appDelete headers' clientId pairs =>
      obtain rfl := Option.some.inj hreq
      exact ⟨_, rfl, Apps.deletePage_own st d headers' clientId pairs⟩
  | _ => cases hreq

/-- A browser is recognised in two databases. -/
theorem agrees_currentSession {Q : Except AppError Response → Conn Sharp → Conn Sharp → Prop}
    {f : Option (Session × User) → Service AppError Response} (hu : db.Unique) (hu' : db'.Unique)
    (hs : SignedIn st.toCrates d headers db session user)
    (hs' : SignedIn st.toCrates d headers db' session user)
    (hfailed : ∀ e, Q (.error e) ⟨db, none⟩ ⟨db', none⟩)
    (hok : (f (some (session, user))).agrees Q (f (some (session, user))) ⟨db, none⟩ ⟨db', none⟩) :
    ((currentSession st.toCrates d headers).bind f).agrees Q
      ((currentSession st.toCrates d headers).bind f) ⟨db, none⟩ ⟨db', none⟩ := by
  obtain ⟨value, hcookie, hhash⟩ := hs.cookie
  rw [currentSession, hcookie]
  simp only [Session.findActive, Prog.bind_eq, Prog.pure_eq, Prog.bind_assoc]
  refine agrees_query_auto (hfailed _) (hs.find_session hu hcookie) (hs'.find_session hu' hcookie) ?_
  rw [db.after_of_reads rfl, db'.after_of_reads rfl]
  show (Prog.bind (Prog.bind _ _) _).agrees Q (Prog.bind (Prog.bind _ _) _) _ _
  rw [Prog.bind_assoc]
  refine agrees_query_auto (hfailed _) (hs.find_user hu) (hs'.find_user hu') ?_
  rw [db.after_of_reads rfl, db'.after_of_reads rfl]
  exact hok

/-- A page of the portal begins with the session and ends with the applications of its user. -/
theorem Apps.OwnPage.agrees {p : Service AppError Response} (h : Apps.OwnPage st d headers p)
    (hu : db.Unique) (hu' : db'.Unique) (hs : SignedIn st.toCrates d headers db session user)
    (ht : Twins d user.id db db') :
    p.agrees (fun _ => Prog.Lockstep (S := Sharp) (Twins d user.id)) p ⟨db, none⟩ ⟨db', none⟩ := by
  obtain ⟨returnTo, handler, rfl, hhandler⟩ := h
  have hs' : SignedIn st.toCrates d headers db' session user :=
    { hs with
      mem := ht.same.sessions ▸ hs.mem
      user_mem := ht.same.users ▸ hs.user_mem }
  rw [Apps.signedInUser, Prog.bind_eq]
  refine agrees_currentSession hu hu' hs hs' (fun e => .outside ht) ?_
  exact Prog.agrees_of_only (S := Sharp) (fun q s s' hq hss => hss.step hq) (hhandler user) _ _
    (.outside ht)

/-- **Whatever others have registered, the response is the same.** -/
theorem Twins.serve (ht : Twins d user.id db db') (hu : db.Unique) (hu' : db'.Unique)
    (hreq : req.portal? = some headers) (hs : SignedIn st.toCrates d headers db session user)
    (faults : List Bool) :
    (serve st d faults req db).1 = (serve st d faults req db').1 ∧
      SamePortal user.id (serve st d faults req db).2 (serve st d faults req db').2 := by
  obtain ⟨p, hp, hown⟩ := respond_own st d hreq
  have hagrees : (respond st d req).agrees (fun _ c c' => Twins d user.id c.db c'.db)
      (respond st d req) ⟨db, none⟩ ⟨db', none⟩ := by
    rw [hp, orInternalError, Prog.bind_eq]
    refine Prog.agrees_bind (P := fun _ => Prog.Lockstep (S := Sharp) (Twins d user.id)) ?_ ?_ _ _ _ _
      (Prog.agrees_attempt _ _ _ _ (hown.agrees hu hu' hs ht))
    · intro r c c' h
      have hdb : Twins d user.id c.db c'.db := by
        cases h with
        | outside h => exact h
        | inside h => exact h
      cases r with
      | ok r => exact ⟨rfl, hdb⟩
      | error e => exact ⟨rfl, hdb⟩
    · exact fun e => e.elim
  obtain ⟨hresponse, hafter⟩ :=
    Prog.agrees_serve (S := Sharp) (R := fun _ => Twins d user.id) faults hagrees
  exact ⟨congrArg Prog.value hresponse, hafter.same⟩

/-- The requests about one application start with a lookup that asks for the owner. -/
theorem respond_ownedApp (st : AppState) (d : Draws) (hreq : req.portal? = some headers)
    (happ : req.appId? = some clientId) :
    ∃ (returnTo : String) (handler : User → OAuthClient → Service AppError Response),
      respond st d req = orInternalError (Apps.signedInUser st d headers returnTo fun user =>
        Apps.ownedApp user clientId (handler user)) := by
  cases req with
  | appShow headers' path clientId' notice =>
      obtain rfl := Option.some.inj hreq
      obtain rfl := Option.some.inj happ
      exact ⟨_, _, rfl⟩
  | appUpdate headers' clientId' pairs =>
      obtain rfl := Option.some.inj hreq
      obtain rfl := Option.some.inj happ
      exact ⟨_, _, rfl⟩
  | appRotateSecret headers' clientId' pairs =>
      obtain rfl := Option.some.inj hreq
      obtain rfl := Option.some.inj happ
      exact ⟨_, _, rfl⟩
  | appDelete headers' clientId' pairs =>
      obtain rfl := Option.some.inj hreq
      obtain rfl := Option.some.inj happ
      exact ⟨_, _, rfl⟩
  | _ => cases happ

/-- An application of somebody else is not found. -/
theorem serve_notFound (hu : db.Unique) (hreq : req.portal? = some headers)
    (happ : req.appId? = some clientId) (hs : SignedIn st.toCrates d headers db session user)
    (hforeign : ∀ c ∈ db.clients, c.clientId = clientId → c.ownerUserId ≠ some user.id)
    {faults : List Bool} (hfaults : true ∉ faults) :
    serve st d faults req db = (errorPage 404 "Application not found"
      "It may have been deleted, or it belongs to a different Sharpnr account.", db) := by
  obtain ⟨returnTo, handler, hrespond⟩ := respond_ownedApp st d hreq happ
  have hwp : (respond st d req).wp (true ∈ faults) (fun r c =>
      Prog.value r = errorPage 404 "Application not found"
        "It may have been deleted, or it belongs to a different Sharpnr account." ∧ c.db = db)
      { db } := by
    rw [hrespond, orInternalError, Prog.bind_eq, Prog.wp_attempt_bind, Apps.signedInUser, Prog.bind_eq]
    refine wp_currentSession_of hu hs (fun e h => absurd h hfaults) ?_
    dsimp only
    rw [Apps.ownedApp, Prog.bind_eq, wp_query_auto]
    refine ⟨fun h => absurd h hfaults, fun found hfound => ?_, by rintro e ⟨⟩⟩
    have hnone : found = none := by
      obtain rfl := Except.ok.inj hfound
      refine List.find?_eq_none.2 fun c hc => ?_
      rw [decide_eq_true_eq]
      exact fun h => hforeign c hc h.1 h.2
    rw [hnone, db.after_of_reads rfl]
    exact ⟨rfl, rfl⟩
  have hserve := Prog.wp_serve (S := Sharp) (R := fun r db' => Prog.value r = errorPage 404
    "Application not found" "It may have been deleted, or it belongs to a different Sharpnr account." ∧
      db' = db) _ faults db hwp
  exact Prod.ext hserve.1 hserve.2

end pages

/-! ### Isolation -/

/-- **Portal isolation.**  A request to the developer portal leaves alone the clients of other
owners, with their codes, consents and refresh tokens; its response is the same in any two states
with the same applications of the user; and an application of somebody else is answered like one
that does not exist. -/
theorem portal_isolation {st : AppState} {es : List Event} {d : Draws} {db : Db} {req : Request}
    {headers : HeaderMap} {session : Session} {user : User} (run : Run st es db) (fresh : Fresh es d)
    (hreq : req.portal? = some headers) (hs : SignedIn st.toCrates d headers db session user) :
    (∀ faults, ForeignKept user.id db (serve st d faults req db).2) ∧
    (∀ es' db', Run st es' db' → Fresh es' d → SamePortal user.id db db' →
      (∀ s ∈ [db, db'], ∀ c ∈ s.clients, c.ownerUserId ≠ some user.id →
        c.clientId ≠ Client.newClientId (d.secret 0)) →
      ∀ faults, (serve st d faults req db).1 = (serve st d faults req db').1 ∧
        SamePortal user.id (serve st d faults req db).2 (serve st d faults req db').2) ∧
    ∀ clientId, req.appId? = some clientId →
      (∀ c ∈ db.clients, c.clientId = clientId → c.ownerUserId ≠ some user.id) →
      ∀ faults, true ∉ faults → serve st d faults req db = (errorPage 404 "Application not found"
        "It may have been deleted, or it belongs to a different Sharpnr account.", db) := by
  have hnew {es' : List Event} {db' : Db} (run' : Run st es' db') (fresh' : Fresh es' d)
      (hclientId : ∀ c ∈ db'.clients, c.ownerUserId ≠ some user.id →
        c.clientId ≠ Client.newClientId (d.secret 0)) : NewIds d user.id db' := by
    intro c hc howner
    refine ⟨fun hid => ?_, hclientId c hc howner⟩
    obtain ⟨e, he, i, hi⟩ := run'.client_drawn c.id (List.mem_map_of_mem hc)
    exact fresh'.uuid_new e he i 0 (hi.trans hid)
  refine ⟨fun faults => ?_, fun es' db' run' fresh' hsame hclientIds faults => ?_,
    fun clientId happ hforeign faults hfaults => ?_⟩
  · exact (serve_registry st d faults (registers_of_portal hreq) db).foreignKept run.unique run.codeLinks hreq hs
  · refine Twins.serve ⟨hsame, hnew run fresh (hclientIds db (by simp)), ?_, run.tokensLinked,
      run'.tokensLinked⟩ run.unique run'.unique hreq hs faults
    exact hnew run' fresh' (hclientIds db' (by simp))
  · exact serve_notFound run.unique hreq happ hs hforeign hfaults

namespace Sample

/-- The application of the user next to a client of the operator. -/
def besideB : Db := signedUp.set .clients [portalApp, clientB]

theorem serve_besideB : (serve state (draws 3) [] createB inPortal).2 = besideB :=
  rows_inj (by decide +kernel)

theorem served_besideB : Served 4 (event 3 createB inPortal :: portalEvents) besideB :=
  served_inPortal.step (by decide) serve_besideB

/-- The user tries to delete the client of the operator. -/
def deleteB : Request :=
  .appDelete signedInBrowser clientB.clientId [("csrf_token", "x"), ("confirm", "yes")]

theorem signedIn_besideB :
    SignedIn state.toCrates (draws 4) signedInBrowser besideB session user where
  mem := by simp [besideB, signedUp, Store.set]
  cookie := signedIn.cookie
  unrevoked := rfl
  unexpired := by decide
  user_mem := by simp [besideB, signedUp, Store.set]
  user_id := rfl

theorem samePortal_inPortal : SamePortal user.id besideB inPortal where
  users := rfl
  sessions := rfl
  scopes := rfl
  apps := by decide +kernel

end Sample

/-- The response to the attempt is the one of a deployment without that client. -/
theorem portal_isolation_besideB :
    (serve Sample.state (Sample.draws 4) [] Sample.deleteB Sample.besideB).1 =
        (serve Sample.state (Sample.draws 4) [] Sample.deleteB Sample.inPortal).1 ∧
      serve Sample.state (Sample.draws 4) [] Sample.deleteB Sample.besideB =
        (errorPage 404 "Application not found"
          "It may have been deleted, or it belongs to a different Sharpnr account.",
          Sample.besideB) := by
  have hportal : Sample.deleteB.portal? = some Sample.signedInBrowser := rfl
  have hisolated := portal_isolation Sample.served_besideB.run
    (Sample.served_besideB.fresh (by decide)) hportal Sample.signedIn_besideB
  have hserved : Sample.Served 4 Sample.portalEvents Sample.inPortal :=
    ⟨Sample.served_inPortal.run, fun e he =>
      (Sample.served_inPortal.draws_lt e he).imp fun m hm => ⟨by omega, hm.2⟩⟩
  refine ⟨(hisolated.2.1 _ _ hserved.run (hserved.fresh (by decide)) Sample.samePortal_inPortal ?_ []).1,
    hisolated.2.2 Sample.clientB.clientId rfl ?_ [] (by decide)⟩
  · decide +kernel
  · decide +kernel

end SharpOauth
