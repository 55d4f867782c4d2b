import SharpOauth.ContractRules
import SharpOauth.Families

/-! # The requests of the server, interleaved

The tables of the server meet what the row locks need (`sharp_keyed`, `Db.Unique.distinct`), so the
rules of `Contract` apply to its requests.

All requests but the token and revocation requests leave refresh tokens and stored codes alone, and
at most add an unused code (`respond_quiet`).  A run of the machine has no step for the deletion of
an application; a request for it ends before its `DELETE`, or waits for ever. -/

namespace SharpOauth

/-! ### Constraints -/

theorem sharp_keyed : Sharp.Keyed where
  clash_symm := clash_symm
  clash_of_key t x y h := by
    cases t <;> simp_all [key, clash]
  keepsRow q := by
    cases q <;> first | trivial | exact fun x => ⟨rfl, fun y => rfl⟩

/-- The tables of a run. -/
theorem Db.Unique.distinct {db : Db} (hu : db.Unique) : Sharp.Distinct db where
  keys t := by
    refine (hu t).map _ fun x y hxy hkey => ?_
    have hclash : clash t x y = true := sharp_keyed.clash_of_key t x y hkey
    rw [hclash] at hxy
    cases hxy
  rows _ _ _ hr hr' hclash := hu.eq hr hr' hclash

/-! ### Quiet statements -/

/-- Versions that are neither of a refresh token nor of a code that was there. -/
inductive Quiet (db : Db) : Version Sharp → Prop where
  | code (c : AuthorizationCode) (hnew : ∀ x ∈ db.codes, x.id ≠ c.id) (hunused : c.usedAt = none) :
      Quiet db ⟨Table.codes, c⟩
  | other (v : Version Sharp) (hcodes : v.table ≠ .codes) (htokens : v.table ≠ .refreshTokens) :
      Quiet db v

theorem Quiet.stable {db db' : Db} {v : Version Sharp} (h : Quiet db v)
    (hrows : ∀ r, key v.table r = key v.table v.row → (r ∈ db' v.table ↔ r ∈ db v.table)) :
    Quiet db' v := by
  cases h with
  | code c hnew hunused =>
      refine .code c (fun x hx hid => hnew x ?_ hid) hunused
      exact (hrows x (congrArg Sum.inl hid)).1 hx
  | other _ hcodes htokens => exact .other v hcodes htokens

/-- The statements of requests that do not exchange or revoke tokens. -/
inductive Stmt.Quiet : Stmt → Prop where
  | elsewhere (q : Stmt) (hcodes : .codes ∉ q.writes) (htokens : .refreshTokens ∉ q.writes) : Quiet q
  | codesInsert (c : AuthorizationCode) (hunused : c.usedAt = none) : Quiet (.codesInsert c)
  | clientsDelete (id : Uuid) : Quiet (.clientsDelete id)

theorem Stmt.inserts_writes {q : Stmt} {s : Db} {t : Table} {r : Row t} {out : Ret q}
    (h : (sem q).Inserts s t r out) : t ∈ q.writes := by
  cases q <;> cases h <;> simp [writes]

theorem Stmt.changes_writes {q : Stmt} {v : Version Sharp} (h : (sem q).Changes v) :
    v.table ∈ q.writes := by
  cases q <;> cases h <;> simp [writes]

theorem Stmt.Quiet.writes {q : Stmt} (h : q.Quiet) : Sharp.Writes SharpOauth.Quiet q := by
  cases h with
  | elsewhere _ hcodes htokens =>
      have hother (v : Version Sharp) (hv : v.table ∈ q.writes) (db : Db) : SharpOauth.Quiet db v :=
        .other v (fun h => hcodes (h ▸ hv)) fun h => htokens (h ▸ hv)
      exact ⟨fun s t r out h db _ => hother _ (inserts_writes h) db,
        fun _ h db => hother _ (changes_writes h) db⟩
  | codesInsert c hunused =>
      constructor
      · intro s t r out h db hnew
        cases h
        exact .code c (fun x hx hid => hnew x hx (congrArg Sum.inl hid)) hunused
      · intro v h
        cases h
  | clientsDelete id =>
      constructor
      · intro s t r out h
        cases h
      · intro v h
        cases h

/-- The statements of sign-ins, sign-ups and logouts. -/
def Stmt.Accounting (q : Stmt) : Prop := ∀ t ∈ q.writes, t = .users ∨ t = .sessions

theorem Stmt.Accounting.quiet {q : Stmt} (h : q.Accounting) : q.Quiet :=
  .elsewhere q (fun hmem => by simpa using h _ hmem) fun hmem => by simpa using h _ hmem

/-- The statements of the token and the revocation endpoint. -/
def Stmt.Exchanging (q : Stmt) : Prop :=
  (∀ t ∈ q.writes, t = .codes ∨ t = .refreshTokens) ∧ ∀ c, q ≠ .codesInsert c

theorem Stmt.Registers.quiet {d : Draws} {q : Stmt} (h : q.Registers d) : q.Quiet := by
  cases h with
  | read q h => exact .elsewhere q (by simp [h]) (by simp [h])
  | clientsDelete id => exact .clientsDelete id
  | _ => exact .elsewhere _ (by simp [writes]) (by simp [writes])

/-! ### Quiet requests -/

section quiet

variable {ε α : Type}

theorem only_quiet [Into SqlError ε] {q : Stmt} (hcodes : .codes ∉ q.writes)
    (htokens : .refreshTokens ∉ q.writes) : (query q : Service ε (Ret q)).Only Stmt.Quiet :=
  Prog.only_query (S := Sharp) (.elsewhere q hcodes htokens)

theorem only_okOr {ε : Type} {P : Stmt → Prop} (o : Option α) (e : ε) :
    (Prog.okOr o e : Service ε α).Only P := by
  cases o with
  | some a => exact .ret a
  | none => exact .fail e

variable (st : AppState) (d : Draws) (headers : HeaderMap)

theorem currentSession_quiet : (currentSession st.toCrates d headers).Only Stmt.Quiet :=
  Prog.only_mono (fun _ h => h.quiet) (currentSession_only st.toCrates d headers)

namespace Authorization

theorem validate_quiet (r : AuthorizationRequest) : (validate r).Only Stmt.Quiet := by
  refine Prog.only_bind (only_okOr _ _) fun clientId => ?_
  refine Prog.only_bind (only_quiet (by simp [Stmt.writes]) (by simp [Stmt.writes])) fun client => ?_
  refine Prog.only_bind (only_okOr _ _) fun client => ?_
  refine Prog.only_bind (only_okOr _ _) fun redirectUri => ?_
  split_ifs
  · exact .fail _
  · exact Prog.only_ofExcept _

theorem grantedScopes_quiet (userId clientId : Uuid) : (grantedScopes userId clientId).Only Stmt.Quiet :=
  Prog.only_bind (only_quiet (by simp [Stmt.writes]) (by simp [Stmt.writes])) fun _ => .ret _

theorem grant_quiet (userId clientId : Uuid) (scopes : ScopeSet) :
    (grant d userId clientId scopes).Only Stmt.Quiet :=
  Prog.only_bind (grantedScopes_quiet userId clientId) fun _ =>
    only_quiet (by simp [Stmt.writes]) (by simp [Stmt.writes])

theorem issueCode_quiet (v : ValidatedRequest) (user : User) (session : Session) :
    (issueCode st d v user session).Only Stmt.Quiet :=
  Prog.only_bind (Prog.only_query (S := Sharp) (.codesInsert _ rfl)) fun _ => Prog.only_ofExcept _

theorem decide_quiet (r : AuthorizationRequest) (signedIn : Option (Session × User)) :
    (Authorization.decide st d r signedIn).Only Stmt.Quiet := by
  refine Prog.only_bind (validate_quiet r) fun v => ?_
  dsimp only
  split
  · split_ifs
    · exact .fail _
    · exact .ret _
  · rename_i session user _
    refine Prog.only_bind (Prog.only_lift (grantedScopes_quiet user.id v.client.id)) fun granted => ?_
    split_ifs
    · exact Prog.only_bind (Prog.only_lift (issueCode_quiet st d v user session)) fun _ => .ret _
    · exact .fail _
    · exact Prog.only_bind (only_quiet (by simp [Stmt.writes]) (by simp [Stmt.writes])) fun _ => .ret _

theorem completeConsent_quiet (r : AuthorizationRequest) (approved : Bool) (session : Session)
    (user : User) : (completeConsent st d r approved session user).Only Stmt.Quiet := by
  refine Prog.only_bind (validate_quiet r) fun v => ?_
  split_ifs
  · exact .fail _
  · exact Prog.only_bind (Prog.only_lift (grant_quiet d user.id v.client.id v.scope)) fun _ =>
      Prog.only_lift (issueCode_quiet st d v user session)

end Authorization

theorem authorize_quiet (pairs : List (String × String)) :
    (authorize st d headers pairs).Only Stmt.Quiet := by
  refine Prog.only_bind (currentSession_quiet st d headers) fun session => ?_
  dsimp only
  split
  · exact .ret _
  · refine Prog.only_bind (Prog.only_attempt (Authorization.decide_quiet st d _ session)) fun r => ?_
    split <;> exact .ret _

theorem consent_quiet (pairs : List (String × String)) :
    (consent st d headers pairs).Only Stmt.Quiet := by
  refine Prog.only_bind (currentSession_quiet st d headers) fun session => ?_
  dsimp only
  split
  · exact .ret _
  · split_ifs
    · exact .ret _
    · split
      · exact .ret _
      · rename_i session user
        refine Prog.only_bind (Prog.only_attempt
          (Authorization.completeConsent_quiet st d _ _ session user)) fun r => ?_
        split <;> exact .ret _

/-! ### Accounts -/

theorem only_accounting [Into SqlError ε] {q : Stmt} (h : q.Accounting) :
    (query q : Service ε (Ret q)).Only Stmt.Accounting := Prog.only_query (S := Sharp) h

namespace Pages

theorem startSession_only (user : User) (returnTo : String) :
    (startSession st d headers user returnTo).Only Stmt.Accounting := by
  have hcreate : (Session.create st.toCrates d user).Only Stmt.Accounting :=
    Prog.only_bind (only_accounting (by simp [Stmt.Accounting, Stmt.writes])) fun _ => .ret _
  rw [startSession]
  split
  · exact Prog.only_bind (only_accounting (by simp [Stmt.Accounting, Stmt.writes])) fun _ =>
      Prog.only_bind hcreate fun _ => .ret _
  · exact Prog.only_bind hcreate fun _ => .ret _

theorem authenticate_only (email password : String) :
    (Account.authenticate st email password).Only Stmt.Accounting := by
  have hfind : (Account.findByRawEmail st.toCrates email).Only Stmt.Accounting := by
    rw [Account.findByRawEmail]
    split
    · exact only_accounting (by simp [Stmt.Accounting, Stmt.writes])
    · exact .ret _
  exact Prog.only_bind hfind fun user => Prog.only_bind (Prog.only_ofExcept _) fun _ => .ret _

theorem signIn_only (form : SignInForm) : (signIn st d headers form).Only Stmt.Accounting := by
  rw [signIn]
  split_ifs
  · exact .ret _
  · refine Prog.only_bind (authenticate_only st form.email form.password) fun user => ?_
    split
    · exact startSession_only st d headers _ _
    · exact .ret _

theorem newAccount_only (account : Account.NewAccount) :
    (Account.signUp st.toCrates d account).Only Stmt.Accounting := by
  refine Prog.only_bind (only_okOr _ _) fun email => ?_
  dsimp only
  split_ifs
  · exact .fail _
  · exact .fail _
  · refine Prog.only_bind (Prog.only_ofExcept _) fun passwordHash => ?_
    refine Prog.only_bind (Prog.only_attempt
      (only_accounting (by simp [Stmt.Accounting, Stmt.writes]))) fun r => ?_
    split
    · exact .ret _
    · exact .fail _
    · exact .fail _

theorem signUp_only (form : SignUpForm) : (signUp st d headers form).Only Stmt.Accounting := by
  rw [signUp]
  split_ifs
  · exact .ret _
  · refine Prog.only_bind (Prog.only_attempt (newAccount_only st d _)) fun r => ?_
    split
    · exact startSession_only st d headers _ _
    · exact .fail _
    · exact .ret _

theorem logout_only (csrfToken : Option String) :
    (logout st d headers csrfToken).Only Stmt.Accounting := by
  rw [logout]
  split_ifs
  · exact .ret _
  · dsimp only
    split
    · exact Prog.only_bind (only_accounting (by simp [Stmt.Accounting, Stmt.writes])) fun _ => .ret _
    · exact Prog.only_bind (.ret _) fun _ => .ret _

end Pages

theorem orInternalError_of_only {P : Stmt → Prop} {p : Service AppError Response} (h : p.Only P) :
    (orInternalError p).Only P := by
  refine Prog.only_bind (Prog.only_attempt h) fun r => ?_
  split <;> exact .ret _

/-- Requests that exchange or revoke tokens. -/
inductive Request.TokenRequest : Request → Prop where
  | token (headers : HeaderMap) (pairs : List (String × String)) :
      (Request.token headers (some pairs)).TokenRequest
  | revoke (headers : HeaderMap) (pairs : List (String × String)) :
      (Request.revoke headers (some pairs)).TokenRequest

/-- **All others are quiet.** -/
theorem respond_quiet {req : Request} (h : ¬req.TokenRequest) :
    (respond st d req).Only Stmt.Quiet := by
  have hregisters (h : req.Registers) : (respond st d req).Only Stmt.Quiet :=
    Prog.only_mono (fun _ h => h.quiet) (respond_only st d h)
  cases req with
  | authorize headers pairs => exact orInternalError_of_only (authorize_quiet st d headers pairs)
  | consent headers pairs => exact orInternalError_of_only (consent_quiet st d headers pairs)
  | token headers form =>
      cases form with
      | some pairs => exact absurd (.token headers pairs) h
      | none => exact .ret _
  | revoke headers form =>
      cases form with
      | some pairs => exact absurd (.revoke headers pairs) h
      | none => exact .ret _
  | signIn headers form =>
      exact orInternalError_of_only
        (Prog.only_mono (fun _ h => h.quiet) (Pages.signIn_only st d headers form))
  | signUp headers form =>
      exact orInternalError_of_only
        (Prog.only_mono (fun _ h => h.quiet) (Pages.signUp_only st d headers form))
  | logout headers csrfToken =>
      exact orInternalError_of_only
        (Prog.only_mono (fun _ h => h.quiet) (Pages.logout_only st d headers csrfToken))
  | _ => exact hregisters (by constructor)

/-! ### Token requests -/

theorem only_exchanging [Into SqlError ε] {q : Stmt}
    (hwrites : ∀ t ∈ q.writes, t = .codes ∨ t = .refreshTokens) (h : ∀ c, q ≠ .codesInsert c) :
    (query q : Service ε (Ret q)).Only Stmt.Exchanging := Prog.only_query (S := Sharp) ⟨hwrites, h⟩

/-- `begin` and `commit` are not statements. -/
theorem only_begin {P : Stmt → Prop} : (Handler.begin : Service AppError Unit).Only P :=
  .call _ _ (fun q h => by cases h) fun r => Prog.only_ofExcept r

theorem only_commit {P : Stmt → Prop} : (Handler.commit : Service AppError Unit).Only P :=
  .call _ _ (fun q h => by cases h) fun r => Prog.only_ofExcept r

theorem login_only (credentials : Client.ClientCredentials) :
    (Client.authenticate st.toCrates credentials).Only Stmt.Exchanging := by
  refine Prog.only_bind (only_exchanging (by simp [Stmt.writes]) (by simp)) fun client => ?_
  split
  · split_ifs
    · exact .ret _
    · exact .fail _
  · exact .fail _

theorem issue_only (new : Refresh.NewRefreshToken) :
    (Refresh.issue st.toCrates d new).Only Stmt.Exchanging :=
  Prog.only_bind (only_exchanging (by simp [Stmt.writes]) (by simp)) fun _ => .ret _

namespace Token

theorem exchangeAuthorizationCode_only (client : OAuthClient) (params : Params) :
    (exchangeAuthorizationCode st d client params).Only Stmt.Exchanging := by
  refine Prog.only_bind (only_okOr _ _) fun code => Prog.only_bind (only_okOr _ _) fun uri => ?_
  refine Prog.only_bind (only_okOr _ _) fun verifier => Prog.only_bind only_begin fun _ => ?_
  refine Prog.only_bind (only_exchanging (by simp [Stmt.writes]) (by simp)) fun claimed => ?_
  split
  · refine Prog.only_bind (only_exchanging (by simp [Stmt.writes]) (by simp)) fun used => ?_
    split
    · exact Prog.only_bind (only_exchanging (by simp [Stmt.writes]) (by simp)) fun _ =>
        Prog.only_bind only_commit fun _ => .fail _
    · exact .fail _
  · split
    · exact Prog.only_bind only_commit fun _ => .fail _
    · refine Prog.only_bind (Prog.only_ofExcept _) fun scope => ?_
      refine Prog.only_bind (Prog.only_ofExcept _) fun response => ?_
      have hlast (refreshToken : Option String) : (Prog.bind Handler.commit fun _ =>
          Prog.ret { response with refreshToken } : Service AppError TokenResponse).Only Stmt.Exchanging :=
        Prog.only_bind only_commit fun _ => .ret _
      dsimp only
      split_ifs
      · exact Prog.only_bind (issue_only st d _) fun _ => hlast _
      · exact hlast none

theorem exchangeRefreshToken_only (client : OAuthClient) (params : Params) :
    (exchangeRefreshToken st d client params).Only Stmt.Exchanging := by
  refine Prog.only_bind (only_okOr _ _) fun raw => Prog.only_bind (Prog.only_ofExcept _) fun requested => ?_
  refine Prog.only_bind only_begin fun _ => ?_
  refine Prog.only_bind (only_exchanging (by simp [Stmt.writes]) (by simp)) fun record => ?_
  refine Prog.only_bind (only_okOr _ _) fun record => ?_
  split
  · exact Prog.only_bind (only_exchanging (by simp [Stmt.writes]) (by simp)) fun _ =>
      Prog.only_bind only_commit fun _ => .fail _
  · exact .fail _
  · exact .fail _
  · exact .fail _
  · refine Prog.only_bind (Prog.only_ofExcept _) fun granted => ?_
    refine Prog.only_bind (Prog.only_ofExcept _) fun scope => Prog.only_bind (Prog.only_ofExcept _) fun r => ?_
    refine Prog.only_bind (issue_only st d _) fun new => ?_
    exact Prog.only_bind (only_exchanging (by simp [Stmt.writes]) (by simp)) fun _ =>
      Prog.only_bind only_commit fun _ => .ret _

theorem handle_only (header : Option String) (pairs : List (String × String)) :
    (handle st d header pairs).Only Stmt.Exchanging := by
  refine Prog.only_bind (Prog.only_ofExcept _) fun params => ?_
  refine Prog.only_bind (Prog.only_ofExcept _) fun grantType => ?_
  refine Prog.only_bind (Prog.only_ofExcept _) fun credentials => ?_
  refine Prog.only_bind (login_only st _) fun client => ?_
  split
  · exact exchangeAuthorizationCode_only st d client params
  · exact exchangeRefreshToken_only st d client params

end Token

theorem revocation_only (header : Option String) (pairs : List (String × String)) :
    (Revocation.handle st d header pairs).Only Stmt.Exchanging := by
  refine Prog.only_bind (Prog.only_ofExcept _) fun params => ?_
  refine Prog.only_bind (Prog.only_ofExcept _) fun credentials => ?_
  refine Prog.only_bind (login_only st _) fun client => Prog.only_bind (only_okOr _ _) fun token => ?_
  refine Prog.only_bind (only_exchanging (by simp [Stmt.writes]) (by simp)) fun found => ?_
  split
  · exact .ret _
  · split_ifs
    · exact .fail _
    · exact Prog.only_bind (only_exchanging (by simp [Stmt.writes]) (by simp)) fun _ => .ret _

/-- **The requests of clients.** -/
theorem respond_exchanging {req : Request} (h : req.TokenRequest) :
    (respond st d req).Only Stmt.Exchanging := by
  cases h with
  | token headers pairs =>
      refine Prog.only_bind (Prog.only_attempt (Token.handle_only st d _ pairs)) fun r => ?_
      split <;> exact .ret _
  | revoke headers pairs =>
      refine Prog.only_bind (Prog.only_attempt (revocation_only st d _ pairs)) fun r => ?_
      split <;> exact .ret _

end quiet

end SharpOauth
