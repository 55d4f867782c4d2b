import SharpOauth.Redemption

/-! # What a client learns about the refresh tokens of others

Two servers whose tables differ in nothing but the refresh tokens of other clients (`SameFor`)
answer every `grant_type=refresh_token` request of a client alike, and change its own tokens
alike (`refresh_isolation`).  The two requests may even differ in the presented string, if neither
string is a token of the client (`Alike`): the tokens of others are as good as unknown strings.

The two exchanges run in lockstep (`exchangeRefreshToken_agrees`).  They part only where they look
the token up, and a token of another client is refused with the error of an unknown one. -/

namespace SharpOauth

open Token

/-! ### Tables that differ in the tokens of others -/

/-- The refresh tokens of a client. -/
def Db.tokensOf (db : Db) (clientId : Uuid) : List RefreshToken :=
  db.refreshTokens.filter fun t => t.clientId = clientId

/-- The tables agree on everything but the refresh tokens of other clients. -/
structure SameFor (clientId : Uuid) (db db' : Db) : Prop where
  tables : ∀ t : Table, t ≠ .refreshTokens → db t = db' t
  tokens : db.tokensOf clientId = db'.tokensOf clientId

section tables

variable {db db' : Db} {clientId : Uuid}

theorem Db.mem_tokensOf {t : RefreshToken} :
    t ∈ db.tokensOf clientId ↔ t ∈ db.refreshTokens ∧ t.clientId = clientId := by
  simp [tokensOf]

/-- A change that keeps the owners. -/
theorem Db.tokensOf_map {f : RefreshToken → RefreshToken} (hf : ∀ t, (f t).clientId = t.clientId)
    (h : db'.refreshTokens = db.refreshTokens.map f) :
    db'.tokensOf clientId = (db.tokensOf clientId).map f := by
  unfold tokensOf
  rw [h, List.filter_map]
  congr 1
  apply List.filter_congr
  intro t _
  simp [hf t]

namespace SameFor

/-- The statements on the refresh tokens leave the other tables alone. -/
theorem after (h : SameFor clientId db db') {q q' : Stmt} (hq : q.writes = [.refreshTokens])
    (hq' : q'.writes = [.refreshTokens])
    (htokens : (db.after q).tokensOf clientId = (db'.after q').tokensOf clientId) :
    SameFor clientId (db.after q) (db'.after q') := by
  refine ⟨fun t ht => ?_, htokens⟩
  rw [db.after_of_writes (by simp [hq, ht]), db'.after_of_writes (by simp [hq', ht])]
  exact h.tables t ht

theorem revokeFamily (h : SameFor clientId db db') (familyId : Uuid) (now : Instant) :
    SameFor clientId (db.after (.tokensRevokeFamily familyId now))
      (db'.after (.tokensRevokeFamily familyId now)) := by
  have howner (t : RefreshToken) :
      (t.revokeIf (fun t => t.familyId = familyId) now).clientId = t.clientId := by
    unfold RefreshToken.revokeIf
    split_ifs <;> rfl
  apply h.after rfl rfl
  rw [Db.tokensOf_map howner (db.after_tokensRevokeFamily familyId now),
    Db.tokensOf_map howner (db'.after_tokensRevokeFamily familyId now), h.tokens]

theorem markRotated (h : SameFor clientId db db') (id next : Uuid) :
    SameFor clientId (db.after (.tokensMarkRotated id next))
      (db'.after (.tokensMarkRotated id next)) := by
  have howner (t : RefreshToken) : (t.rotate id next).clientId = t.clientId := by
    unfold RefreshToken.rotate
    split_ifs <;> rfl
  apply h.after rfl rfl
  rw [Db.tokensOf_map howner (db.after_tokensMarkRotated id next),
    Db.tokensOf_map howner (db'.after_tokensMarkRotated id next), h.tokens]

theorem insert (h : SameFor clientId db db') {t : RefreshToken} {u u' : Unit}
    (hinsert : db.result (.tokensInsert t) = .ok u)
    (hinsert' : db'.result (.tokensInsert t) = .ok u') :
    SameFor clientId (db.after (.tokensInsert t)) (db'.after (.tokensInsert t)) := by
  apply h.after rfl rfl
  have htokens := h.tokens
  unfold Db.tokensOf at htokens ⊢
  rw [db.after_tokensInsert hinsert, db'.after_tokensInsert hinsert', List.filter_append,
    List.filter_append, htokens]

end SameFor

/-- The token that the request would issue is new. -/
def NextIsNew (st : AppState) (d : Draws) (db : Db) : Prop :=
  ∀ t ∈ db.refreshTokens, t.id ≠ d.uuid 2 ∧ t.tokenHash ≠ st.hashToken (generateToken (d.secret 0))

/-- A new token can be stored. -/
theorem NextIsNew.insert {st : AppState} {d : Draws} (hnew : NextIsNew st d db) {client : OAuthClient}
    {record : RefreshToken} : db.result (.tokensInsert (nextToken st d client record)) = .ok () := by
  cases hinsert : db.result (.tokensInsert (nextToken st d client record)) with
  | ok u => rfl
  | error e =>
      obtain ⟨t, ht, h⟩ := db.result_tokensInsert_error hinsert
      obtain ⟨hid, hhash⟩ := hnew t ht
      rcases h with h | h
      · exact absurd h.symm hid
      · exact absurd h.symm hhash

/-! ### Looking a token up -/

/-- A token of the client is found by its hash. -/
theorem lock_own (hu : db.Unique) {t : RefreshToken} (ht : t ∈ db.tokensOf clientId) :
    db.result (.tokensFindByHashForUpdate t.tokenHash) = .ok (some t) := by
  have hmem : t ∈ db.refreshTokens := (Db.mem_tokensOf.1 ht).1
  cases hfound : db.result (.tokensFindByHashForUpdate t.tokenHash) with
  | error e => cases hfound
  | ok found =>
      cases found with
      | none => exact absurd rfl (not_locked_token hfound t hmem)
      | some record =>
          have hf : Found db t.tokenHash record := locked_token hfound
          rw [hu.eq (t := .refreshTokens) hf.mem hmem (by simp [clash, hf.hash])]

/-- By any other hash, at most the token of another client is found. -/
theorem lock_other {tokenHash : String} (h : ∀ t ∈ db.tokensOf clientId, t.tokenHash ≠ tokenHash) :
    ∃ found, db.result (.tokensFindByHashForUpdate tokenHash) = .ok found ∧
      ∀ record, found = some record → record.clientId ≠ clientId := by
  refine ⟨_, rfl, fun record hrecord hclient => ?_⟩
  have hf : Found db tokenHash record := locked_token (congrArg Except.ok hrecord)
  exact h record (Db.mem_tokensOf.2 ⟨hf.mem, hclient⟩) hf.hash

end tables

/-! ### Two requests of a client -/

/-- The request presents a string that is none of the tokens. -/
def Unknown (st : AppState) (tokens : List RefreshToken) (params : Params) : Prop :=
  ∃ raw, params.get "refresh_token" = some raw ∧ ∀ t ∈ tokens, t.tokenHash ≠ st.hashToken raw

/-- Two requests of the client with these refresh tokens: they are the same, or differ in the
presented string, which is none of the tokens in either. -/
structure Alike (st : AppState) (tokens : List RefreshToken) (params params' : Params) : Prop where
  get : ∀ name, name ≠ "refresh_token" → params.get name = params'.get name
  token : params.get "refresh_token" = params'.get "refresh_token" ∨
    (Unknown st tokens params ∧ Unknown st tokens params')

section exchange

variable {st : AppState} {d : Draws} {client : OAuthClient} {params params' : Params} {db db' : Db}

theorem Alike.refl (tokens : List RefreshToken) (params : Params) : Alike st tokens params params :=
  ⟨fun _ _ => rfl, .inl rfl⟩

/-- Both requests present a string, or neither does. -/
theorem Alike.none_iff {tokens : List RefreshToken} (h : Alike st tokens params params') :
    params.get "refresh_token" = none ↔ params'.get "refresh_token" = none := by
  rcases h.token with heq | ⟨⟨raw, hraw, -⟩, raw', hraw', -⟩
  · rw [heq]
  · rw [hraw, hraw']
    simp

/-- Either both requests present the same token of the client, or neither presents one. -/
theorem Alike.presented {tokens : List RefreshToken} (h : Alike st tokens params params')
    {raw raw' : String} (hraw : params.get "refresh_token" = some raw)
    (hraw' : params'.get "refresh_token" = some raw') :
    (∃ t ∈ tokens, t.tokenHash = st.hashToken raw ∧ t.tokenHash = st.hashToken raw') ∨
      ((∀ t ∈ tokens, t.tokenHash ≠ st.hashToken raw) ∧
        ∀ t ∈ tokens, t.tokenHash ≠ st.hashToken raw') := by
  rcases h.token with heq | ⟨⟨r, hr, hother⟩, r', hr', hother'⟩
  · rw [hraw, hraw'] at heq
    obtain rfl := Option.some.inj heq
    by_cases hown : ∃ t ∈ tokens, t.tokenHash = st.hashToken raw
    · obtain ⟨t, ht, hhash⟩ := hown
      exact .inl ⟨t, ht, hhash, hhash⟩
    · have hother (t : RefreshToken) (ht : t ∈ tokens) : t.tokenHash ≠ st.hashToken raw :=
        fun hhash => hown ⟨t, ht, hhash⟩
      exact .inr ⟨hother, hother⟩
  · obtain rfl := Option.some.inj (hraw.symm.trans hr)
    obtain rfl := Option.some.inj (hraw'.symm.trans hr')
    exact .inr ⟨hother, hother'⟩

/-- A token of another client is refused before anything else is looked at. -/
theorem RefreshToken.checkUsable_other {t : RefreshToken} {clientId : Uuid}
    (h : t.clientId ≠ clientId) (now : Instant) : t.checkUsable clientId now = .error .wrongClient :=
  if_pos h

/-- Whether nothing is found or something that is refused: the error is the same. -/
theorem okOr_refused {α : Type} {found : Option RefreshToken} {e : AppError}
    {f : RefreshToken → Service AppError α} (h : ∀ record, found = some record → f record = .fail e) :
    (Prog.okOr found e).bind f = .fail e := by
  cases found with
  | none => rfl
  | some record => exact h record rfl

/-- **The exchanges run in lockstep.** -/
theorem exchangeRefreshToken_agrees (hsame : SameFor client.id db db') (hu : db.Unique)
    (hu' : db'.Unique) (hnew : NextIsNew st d db) (hnew' : NextIsNew st d db')
    (halike : Alike st (db.tokensOf client.id) params params') :
    (exchangeRefreshToken st d client params).agrees (fun _ c c' => SameFor client.id c.db c'.db)
      (exchangeRefreshToken st d client params') ⟨db, none⟩ ⟨db', none⟩ := by
  unfold exchangeRefreshToken
  simp only [Prog.bind_eq, Prog.pure_eq]
  refine Prog.agrees_okOr (fun raw raw' hraw hraw' => ?_) halike.none_iff fun _ => hsame
  rw [← halike.get "scope" (by decide)]
  refine Prog.agrees_ofExcept (fun requested _ => ?_) fun _ _ => hsame
  refine Prog.agrees_begin (S := Sharp) hsame ?_
  rcases halike.presented hraw hraw' with ⟨record, hrecord, hhash, hhash'⟩ | ⟨hother, hother'⟩
  · -- A token of the client: everything that follows depends on its row only.
    have hrecord' : record ∈ db'.tokensOf client.id := hsame.tokens ▸ hrecord
    have hlock := lock_own hu hrecord
    have hlock' := lock_own hu' hrecord'
    rw [hhash] at hlock
    rw [hhash'] at hlock'
    refine agrees_query_tx hsame hlock hlock' ?_
    rw [db.after_of_reads rfl, db'.after_of_reads rfl, Prog.okOr_some, Prog.ret_bind]
    cases hcheck : record.checkUsable client.id d.now with
    | error u =>
        cases u with
        | alreadyRotated =>
            refine agrees_query_tx hsame rfl rfl ?_
            refine Prog.agrees_commit (S := Sharp) hsame ⟨rfl, ?_⟩
            exact hsame.revokeFamily record.familyId d.now
        | wrongClient => exact ⟨rfl, hsame⟩
        | revoked => exact ⟨rfl, hsame⟩
        | expired => exact ⟨rfl, hsame⟩
    | ok u =>
        refine Prog.agrees_ofExcept (fun granted _ => ?_) fun _ _ => hsame
        refine Prog.agrees_ofExcept (fun scope _ => ?_) fun _ _ => hsame
        refine Prog.agrees_ofExcept (fun response _ => ?_) fun _ _ => hsame
        simp only [Refresh.issue, Prog.bind_eq, Prog.pure_eq, Prog.bind_assoc, Prog.ret_bind]
        refine agrees_query_tx hsame hnew.insert hnew'.insert ?_
        refine agrees_query_tx hsame rfl rfl ?_
        refine Prog.agrees_commit (S := Sharp) hsame ⟨rfl, ?_⟩
        exact (hsame.insert hnew.insert hnew'.insert).markRotated record.id (d.uuid 2)
  · -- Another string: in either run nothing is found, or a token that is refused.
    obtain ⟨found, hfound, hforeign⟩ := lock_other hother
    rw [hsame.tokens] at hother'
    obtain ⟨found', hfound', hforeign'⟩ := lock_other hother'
    refine agrees_query_tx hsame hfound hfound' ?_
    rw [db.after_of_reads rfl, db'.after_of_reads rfl, okOr_refused, okOr_refused]
    · exact ⟨rfl, hsame⟩
    · intro record hrecord
      simp only [RefreshToken.checkUsable_other (hforeign' record hrecord)]
    · intro record hrecord
      simp only [RefreshToken.checkUsable_other (hforeign record hrecord)]

end exchange

/-! ### The guarantee -/

section guarantee

variable {st : AppState} {es es' : List Event} {d : Draws} {client : OAuthClient}
  {params params' : Params} {db db' : Db} {pairs pairs' : List (String × String)}

/-- The credentials are not looked for in the refresh token. -/
theorem Alike.credentials {tokens : List RefreshToken} (h : Alike st tokens params params')
    (header : Option String) :
    Client.extractCredentials header params' = Client.extractCredentials header params := by
  unfold Client.extractCredentials
  rw [h.get "client_secret" (by decide), h.get "client_id" (by decide)]

/-- **The token endpoint runs in lockstep** on the requests of an authenticated client. -/
theorem Token.handle_agrees {header : Option String} (hsame : SameFor client.id db db')
    (hu : db.Unique) (hu' : db'.Unique) (hnew : NextIsNew st d db) (hnew' : NextIsNew st d db')
    (hl : Login st db header pairs params client)
    (hg : params.get "grant_type" = some "refresh_token")
    (hparams' : Params.fromPairs pairs' = .ok params')
    (halike : Alike st (db.tokensOf client.id) params params') :
    (handle st d header pairs).agrees (fun _ c c' => SameFor client.id c.db c'.db)
      (handle st d header pairs') ⟨db, none⟩ ⟨db', none⟩ := by
  obtain ⟨credentials, hc, hauth⟩ := hl.authenticated
  have hc' : Client.extractCredentials header params' = .ok credentials :=
    (halike.credentials header).trans hc
  have hgrant : GrantType.parse (params.get "grant_type") = .ok .refreshToken :=
    GrantType.parse_eq_ok.2 hg
  have hgrant' : GrantType.parse (params'.get "grant_type") = .ok .refreshToken := by
    rw [← halike.get "grant_type" (by decide)]
    exact hgrant
  have hfound : db.result (.clientsFindByClientId credentials.clientId) = .ok (some client) :=
    congrArg Except.ok hauth.found
  have hclients : db'.clients = db.clients := (hsame.tables .clients (by decide)).symm
  have hfound' : db'.result (.clientsFindByClientId credentials.clientId) = .ok (some client) := by
    rw [← hfound]
    show Except.ok (db'.clients.find? _) = Except.ok (db.clients.find? _)
    rw [hclients]
  unfold handle
  simp only [Prog.bind_eq, hl.params_ok, hparams', hgrant, hgrant', hc, hc', Except.mapError,
    Prog.ofExcept_ok, Prog.ret_bind, Client.authenticate, Prog.pure_eq, Prog.bind_assoc]
  refine agrees_query_auto hsame hfound hfound' ?_
  rw [db.after_of_reads rfl, db'.after_of_reads rfl]
  simp only [Option.filter_some, hauth.active, hauth.accepted, if_true, Prog.ret_bind]
  exact exchangeRefreshToken_agrees hsame hu hu' hnew hnew' halike

/-- The next refresh token of a run is new. -/
theorem Run.nextIsNew (run : Run st es db) (fresh : Fresh es d) (hno : NoCollision st es d) :
    NextIsNew st d db := by
  intro t ht
  constructor
  · intro hid
    obtain ⟨e, he, i, hi⟩ := run.familyInv.id_drawn t ht
    exact fresh.uuid_new e he i 2 (hi.trans hid)
  · intro hhash
    obtain ⟨i, hi⟩ := run.token_origin t ht
    obtain ⟨e, he, hhash'⟩ := hi.hash
    exact hno e he (hhash'.symm.trans hhash)

/-- **A client learns nothing about the refresh tokens of others.**  Two reachable states agree on
everything but the refresh tokens of other clients; the client sends each a
`grant_type=refresh_token` request, and the requests are the same or differ in a presented string
that is none of its tokens.  Then the responses are the same, the states agree as before, and the
tokens of the other clients are as they were. -/
theorem refresh_isolation (run : Run st es db) (run' : Run st es' db') (fresh : Fresh es d)
    (fresh' : Fresh es' d) (hno : NoCollision st es d) (hno' : NoCollision st es' d)
    (hsame : SameFor client.id db db') {headers : HeaderMap}
    (hl : Login st db (authorizationHeader headers) pairs params client)
    (hg : params.get "grant_type" = some "refresh_token")
    (hparams' : Params.fromPairs pairs' = .ok params')
    (halike : Alike st (db.tokensOf client.id) params params') (faults : List Bool) :
    (serve st d faults (.token headers (some pairs)) db).1 =
        (serve st d faults (.token headers (some pairs')) db').1 ∧
      SameFor client.id (serve st d faults (.token headers (some pairs)) db).2
        (serve st d faults (.token headers (some pairs')) db').2 ∧
      OthersKept db (serve st d faults (.token headers (some pairs)) db).2 client.id ∧
      OthersKept db' (serve st d faults (.token headers (some pairs')) db').2 client.id := by
  have hclients : db'.clients = db.clients := (hsame.tables .clients (by decide)).symm
  have hl' : Login st db' (authorizationHeader headers) pairs' params' client := by
    obtain ⟨credentials, hc, hauth⟩ := hl.authenticated
    refine ⟨hparams', credentials, (halike.credentials _).trans hc, ?_, hauth.active, hauth.accepted⟩
    rw [hclients]
    exact hauth.found
  have hg' : params'.get "grant_type" = some "refresh_token" := by
    rw [← halike.get "grant_type" (by decide)]
    exact hg
  -- No authorization code is presented.
  have hcode {db : Db} {pairs : List (String × String)} {params : Params}
      (hg : params.get "grant_type" = some "refresh_token") :
      ¬(Request.token headers (some pairs) = .token headers (some pairs) ∧
        CrossReplay st db params client.id) := by
    rintro ⟨-, hg', -⟩
    rw [hg] at hg'
    exact absurd hg' (by decide)
  have hagrees : (Prog.serve (respond st d (.token headers (some pairs))) faults db).1 =
        (Prog.serve (respond st d (.token headers (some pairs'))) faults db').1 ∧
      SameFor client.id (Prog.serve (respond st d (.token headers (some pairs))) faults db).2
        (Prog.serve (respond st d (.token headers (some pairs'))) faults db').2 := by
    refine Prog.agrees_serve (S := Sharp) (R := fun _ db db' => SameFor client.id db db') faults ?_
    show (token st d headers (some pairs)).agrees _ (token st d headers (some pairs')) _ _
    rw [token_eq, token_eq]
    refine Prog.agrees_bind (P := fun _ c c' => SameFor client.id c.db c'.db) ?_ ?_ _ _ _ _ ?_
    · exact fun r c c' h => ⟨rfl, h⟩
    · exact fun e c c' h => h
    · refine Prog.agrees_attempt _ _ _ _ ?_
      exact handle_agrees hsame run.unique run'.unique (run.nextIsNew fresh hno)
        (run'.nextIsNew fresh' hno') hl hg hparams' halike
  refine ⟨congrArg Prog.value hagrees.1, hagrees.2, ?_, ?_⟩
  · exact hl.othersKept .token run.unique run.familyInv.families (hcode hg) faults
  · exact hl'.othersKept .token run'.unique run'.familyInv.families (hcode hg') faults

end guarantee

namespace Sample

/-- A request of the second client that presents some string as its refresh token. -/
def refreshForm (raw : String) : List (String × String) :=
  [("grant_type", "refresh_token"), ("client_id", clientB.clientId), ("refresh_token", raw)]

/-- The token of the first client, and a string that is no token at all. -/
def foreignForm : List (String × String) := refreshForm "Dw8PDw8PDw8PDw8PDw8PDw8PDw8PDw8PDw8PDw8PDw8"

def unknownForm : List (String × String) := refreshForm "unknown"

def refreshParams (raw : String) : Params :=
  ⟨(refreshForm raw).reverse, by
    show ["refresh_token", "client_id", "grant_type"].Nodup
    decide⟩

theorem refreshParams_get {raw raw' name : String} (h : name ≠ "refresh_token") :
    (refreshParams raw).get name = (refreshParams raw').get name := by
  have hname : (name == "refresh_token") = false := beq_eq_false_iff_ne.2 h
  simp [Params.get, refreshParams, refreshForm, List.lookup, hname]

theorem refreshLogin : Login state exchanged (authorizationHeader noHeaders) foreignForm
    (refreshParams "Dw8PDw8PDw8PDw8PDw8PDw8PDw8PDw8PDw8PDw8PDw8") clientB where
  params_ok := by rfl
  authenticated := ⟨⟨clientB.clientId, none⟩, by decide +kernel, by decide +kernel, rfl, rfl⟩

/-- The second client has no refresh tokens; the first has revoked its own meanwhile. -/
theorem sameFor_replayed : SameFor clientB.id exchanged replayed where
  tables _ ht := (Store.set_ne _ _ ht).symm
  tokens := by decide +kernel

theorem alike (raw raw' : String) (h : raw ≠ "") (h' : raw' ≠ "") :
    Alike state (exchanged.tokensOf clientB.id) (refreshParams raw) (refreshParams raw') := by
  have hnone : exchanged.tokensOf clientB.id = [] := by decide +kernel
  have hunknown (raw : String) (h : raw ≠ "") :
      Unknown state (exchanged.tokensOf clientB.id) (refreshParams raw) := by
    refine ⟨raw, ?_, fun t ht => ?_⟩
    · show Option.filter _ (some raw) = some raw
      simp [h]
    · rw [hnone] at ht
      exact absurd ht List.not_mem_nil
  exact ⟨fun name hname => refreshParams_get hname, .inr ⟨hunknown raw h, hunknown raw' h'⟩⟩

theorem noCollision_replays : NoCollision state replays (draws 7) := by
  have hall : ∀ m ∈ [6, 5, 4, 3, 2, 1], state.hashToken (generateToken ((draws m).secret 0)) ≠
      state.hashToken (generateToken ((draws 7).secret 0)) := by
    decide +kernel
  intro e he
  simp only [replays, authorizations, registrations, List.cons_append, List.nil_append, List.mem_cons,
    List.not_mem_nil, or_false] at he
  rcases he with rfl | rfl | rfl | rfl | rfl | rfl
  · exact hall 6 (by decide)
  · exact hall 5 (by decide)
  · exact hall 4 (by decide)
  · exact hall 3 (by decide)
  · exact hall 2 (by decide)
  · exact hall 1 (by decide)

theorem noCollision : NoCollision state authorizations (draws 7) :=
  fun e he => noCollision_replays e (List.mem_cons_of_mem _ he)

theorem fresh_authorizations : Fresh authorizations (draws 7) := by
  have hserved : Served 7 authorizations exchanged := by
    refine ⟨served_exchanged.run, fun e he => ?_⟩
    obtain ⟨m, hm, hd⟩ := served_exchanged.draws_lt e he
    exact ⟨m, by omega, hd⟩
  exact hserved.fresh (by decide)

end Sample

/-- The second client presents the token of the first while it is live, and an unknown string after
it was revoked. -/
theorem refresh_isolation_replayed :
    (serve Sample.state (Sample.draws 7) [] (.token Sample.noHeaders (some Sample.foreignForm))
          Sample.exchanged).1 =
        (serve Sample.state (Sample.draws 7) [] (.token Sample.noHeaders (some Sample.unknownForm))
          Sample.replayed).1 ∧
      SameFor Sample.clientB.id
        (serve Sample.state (Sample.draws 7) []
          (.token Sample.noHeaders (some Sample.foreignForm)) Sample.exchanged).2
        (serve Sample.state (Sample.draws 7) []
          (.token Sample.noHeaders (some Sample.unknownForm)) Sample.replayed).2 ∧
      OthersKept Sample.exchanged
        (serve Sample.state (Sample.draws 7) []
          (.token Sample.noHeaders (some Sample.foreignForm)) Sample.exchanged).2
        Sample.clientB.id ∧
      OthersKept Sample.replayed
        (serve Sample.state (Sample.draws 7) []
          (.token Sample.noHeaders (some Sample.unknownForm)) Sample.replayed).2
        Sample.clientB.id :=
  refresh_isolation Sample.served_exchanged.run
    Sample.served_replayed.run Sample.fresh_authorizations (Sample.served_replayed.fresh (by decide))
    Sample.noCollision Sample.noCollision_replays Sample.sameFor_replayed Sample.refreshLogin
    (by decide +kernel) (by rfl) (Sample.alike _ _ (by decide) (by decide)) []

end SharpOauth
