import SharpOauth.Redemption
import SharpOauth.Cookies

/-! # The life of a session

A session starts with a sign-in or a sign-up that succeeds (`SignsIn`) and ends after seven days,
or when a later logout, sign-in or sign-up carries its token (`Ends`).

* `Event.session_step` says what one request does to the table of sessions, and
  `Run.session_history` what the table says about a whole run: it has one row for every session
  that was started, and a row is unrevoked as long as no later request has ended it.
* A token therefore resolves exactly while its session lives (`sessions_live`). -/

namespace SharpOauth

/-! ### Requests that start or end a session -/

/-- The token that `Session.create` returns during the request. -/
def Event.token (e : Event) : String := generateToken (e.draws.secret 0)

/-- A sign-in or sign-up that passed the CSRF check and started a session for `user`. -/
inductive SignsIn (st : AppState) (e : Event) (headers : HeaderMap) (user : User) : Prop where
  | signIn (form : SignInForm) (hreq : e.req = .signIn headers form)
      (hcsrf : Csrf.verify headers form.csrfToken = true) (hmem : user ∈ e.before.users)
      (hemail : Account.normalizeEmail st.toCrates form.email = some user.email)
      (hverified : st.verifyPassword form.password user.passwordHash = .ok true)
      (hanswer : e.response = Pages.sessionStarted st e.draws (Pages.target form.returnTo))
  | signUp (form : SignUpForm) (hreq : e.req = .signUp headers form)
      (hcsrf : Csrf.verify headers form.csrfToken = true) (email passwordHash : String)
      (hemail : Account.normalizeEmail st.toCrates form.email = some email)
      (hhash : st.hashPassword e.draws.salt form.password = .ok passwordHash)
      (huser : user = Account.newUser e.draws email passwordHash
        ((form.displayName.map trim).filter (· ≠ "")))
      (hanswer : e.response = Pages.sessionStarted st e.draws (Pages.target form.returnTo))

/-- A logout that passed the CSRF check. -/
inductive LogsOut (e : Event) (headers : HeaderMap) : Prop where
  | intro (csrfToken : Option String) (hreq : e.req = .logout headers csrfToken)
      (hcsrf : Csrf.verify headers csrfToken = true)

/-- The request ends the session of the token `t`, which it carries as its cookie. -/
inductive Ends (st : AppState) (e : Event) (t : String) : Prop where
  | logout (headers : HeaderMap) (h : LogsOut e headers)
      (hcookie : CookieManager.get headers Session.sessionCookie = some t)
  | signIn (headers : HeaderMap) (user : User) (h : SignsIn st e headers user)
      (hcookie : CookieManager.get headers Session.sessionCookie = some t)

/-- The request ends the sessions stored under a hash. -/
def EndsHash (st : AppState) (e : Event) (hash : String) : Prop := ∃ t, Ends st e t ∧ st.hashToken t = hash

section events

variable {st : AppState} {e : Event} {headers headers' : HeaderMap} {user user' : User}

/-- What the account pages answer and do, as an event. -/
theorem Event.account_answer (st : AppState) (e : Event) (h : e.req.Authenticating) :
    AccountAnswer st e.draws (true ∈ e.faults) e.before e.req (e.answer st) (e.after st) := by
  rw [Event.answer, Event.after]
  generalize e.req = req at h ⊢
  cases h with
  | signIn headers form => exact serve_account rfl signIn_wp
  | signUp headers form => exact serve_account rfl signUp_wp
  | logout headers csrfToken => exact serve_account rfl logout_wp

theorem sessionStarted_sets (st : AppState) (d : Draws) (returnTo : String) :
    (Pages.sessionStarted st d returnTo).Sets Session.sessionCookie :=
  ⟨_, List.mem_singleton_self _, CookieManager.splitOnce_set (by decide) _ _⟩

theorem SignsIn.sets (h : SignsIn st e headers user) : e.response.Sets Session.sessionCookie := by
  cases h with
  | signIn form hreq hcsrf hmem hemail hverified hanswer =>
      rw [hanswer]
      exact sessionStarted_sets _ _ _
  | signUp form hreq hcsrf email passwordHash hemail hhash huser hanswer =>
      rw [hanswer]
      exact sessionStarted_sets _ _ _

theorem SignsIn.req (h : SignsIn st e headers user) :
    (∃ form, e.req = .signIn headers form) ∨ ∃ form, e.req = .signUp headers form := by
  cases h with
  | signIn form hreq => exact .inl ⟨form, hreq⟩
  | signUp form hreq => exact .inr ⟨form, hreq⟩

theorem SignsIn.headers_eq (h : SignsIn st e headers user) (h' : SignsIn st e headers' user') :
    headers = headers' := by
  rcases h.req with ⟨form, hreq⟩ | ⟨form, hreq⟩ <;>
    rcases h'.req with ⟨form', hreq'⟩ | ⟨form', hreq'⟩ <;> cases hreq.symm.trans hreq' <;> rfl

/-- A request signs in one user. -/
theorem SignsIn.eq (hu : e.before.Unique) (h : SignsIn st e headers user)
    (h' : SignsIn st e headers' user') : user = user' := by
  cases h with
  | signIn form hreq hcsrf hmem hemail hverified hanswer =>
      cases h' with
      | signIn form' hreq' hcsrf' hmem' hemail' hverified' hanswer' =>
          cases hreq.symm.trans hreq'
          have hsame : user.email = user'.email := Option.some.inj (hemail.symm.trans hemail')
          exact hu.eq (t := .users) hmem hmem' (by simp [clash, hsame])
      | signUp form' hreq' => cases hreq.symm.trans hreq'
  | signUp form hreq hcsrf email passwordHash hemail hhash huser hanswer =>
      cases h' with
      | signIn form' hreq' => cases hreq.symm.trans hreq'
      | signUp form' hreq' hcsrf' email' passwordHash' hemail' hhash' huser' hanswer' =>
          cases hreq.symm.trans hreq'
          cases hemail.symm.trans hemail'
          cases hhash.symm.trans hhash'
          exact huser.trans huser'.symm

theorem SignsIn.not_logsOut (h : SignsIn st e headers user) : ¬LogsOut e headers' := by
  rintro ⟨csrfToken, hreq', -⟩
  rcases h.req with ⟨form, hreq⟩ | ⟨form, hreq⟩ <;> cases hreq.symm.trans hreq'

/-- A logout that passes the check ends the session. -/
theorem serve_logout {d : Draws} {faults : List Bool} {db : Db} {csrfToken : Option String}
    (hcsrf : Csrf.verify headers csrfToken = true) (hcalm : true ∉ faults) :
    serve st d faults (.logout headers csrfToken) db =
      (Pages.sessionEnded st, db.retire st.toCrates d headers) := by
  have hwp : (respond st d (.logout headers csrfToken)).wp (true ∈ faults)
      (fun r c => Prog.value r = Pages.sessionEnded st ∧ c.db = db.retire st.toCrates d headers)
      { db } := by
    show (orInternalError (Pages.logout st d headers csrfToken)).wp _ _ _
    rw [orInternalError, Prog.bind_eq, Prog.wp_attempt_bind, Pages.logout, hcsrf, Bool.not_true,
      if_neg Bool.false_ne_true, Db.retire]
    cases CookieManager.get headers Session.sessionCookie with
    | none => exact ⟨rfl, rfl⟩
    | some token =>
        simp only [Prog.bind_eq, Prog.pure_eq]
        rw [Session.revoke, wp_query_auto]
        exact ⟨fun h => absurd h hcalm, fun _ _ => ⟨rfl, rfl⟩, by rintro e ⟨⟩⟩
  have hserve := Prog.wp_serve (S := Sharp) (R := fun r db' => Prog.value r = Pages.sessionEnded st ∧
    db' = db.retire st.toCrates d headers) _ faults db hwp
  exact Prod.ext hserve.1 hserve.2

/-- Only the account pages touch sessions. -/
theorem Event.sessions_kept (st : AppState) (e : Event) (hin : ∀ headers form, e.req ≠ .signIn headers form)
    (hup : ∀ headers form, e.req ≠ .signUp headers form)
    (hout : ∀ headers csrfToken, e.req ≠ .logout headers csrfToken) :
    (e.after st).sessions = e.before.sessions := by
  have heffect := e.effect st
  generalize e.after st = db' at heffect ⊢
  generalize e.req = req at heffect hin hup hout
  generalize e.answer st = answer at heffect
  cases heffect with
  | authorize headers pairs r db' h => exact h.frame (by decide)
  | consent headers pairs r db' h => exact h.frame (by decide) (by decide)
  | token headers pairs r db' h => exact h.frame (by decide) (by decide)
  | revoke headers pairs r db' h => exact h.frame (by decide)
  | notAForm => rfl
  | registry req hreq r db' h => exact h.frame (.inr rfl)
  | account req r db' h =>
      cases h with
      | unchanged => rfl
      | logout headers csrfToken => exact absurd rfl (hout headers csrfToken)
      | signIn headers form => exact absurd rfl (hin headers form)
      | signUp headers form => exact absurd rfl (hup headers form)

/-- Users are never removed. -/
theorem Event.users_subset (st : AppState) (e : Event) : e.before.users ⊆ (e.after st).users := by
  have heffect := e.effect st
  generalize e.after st = db' at heffect ⊢
  generalize e.req = req at heffect
  generalize e.answer st = answer at heffect
  have hkept (h : db' .users = e.before .users) : e.before.users ⊆ db'.users := by
    rw [Db.users, Db.users, h]
    exact List.Subset.refl _
  cases heffect with
  | authorize headers pairs r db' h => exact hkept (h.frame (by decide))
  | consent headers pairs r db' h => exact hkept (h.frame (by decide) (by decide))
  | token headers pairs r db' h => exact hkept (h.frame (by decide) (by decide))
  | revoke headers pairs r db' h => exact hkept (h.frame (by decide))
  | notAForm => exact hkept rfl
  | registry req hreq r db' h => exact hkept (h.frame (.inl rfl))
  | account req r db' h =>
      cases h with
      | unchanged => exact hkept rfl
      | logout headers csrfToken =>
          refine hkept ?_
          rw [Db.retire]
          cases CookieManager.get headers Session.sessionCookie with
          | some old => exact e.before.after_of_writes (by simp [Stmt.writes])
          | none => rfl
      | signIn headers form hcsrf user hmem hemail hverified db' h => exact hkept h.users
      | signUp headers form hcsrf email passwordHash displayName hemail hhash hinsert db' h =>
          rw [h.users, Db.after_usersInsert _ hinsert]
          exact List.subset_append_left _ _

end events

/-! ### One request -/

/-- The row `s'` after a request, and the row `s` before it. -/
structure Touched (st : AppState) (e : Event) (s s' : Session) : Prop where
  id : s'.id = s.id
  userId : s'.userId = s.userId
  hash : s'.sessionTokenHash = s.sessionTokenHash
  expiresAt : s'.expiresAt = s.expiresAt
  revokedAt : s'.revokedAt = none ↔ s.revokedAt = none ∧ ¬EndsHash st e s.sessionTokenHash

/-- What a request does to the sessions: some are ended, and one may be started. -/
inductive SessionStep (st : AppState) (e : Event) (f : Session → Session) : Prop where
  | kept (hnot : ∀ headers user, ¬SignsIn st e headers user)
      (hrows : (e.after st).sessions = e.before.sessions.map f)
  | started (headers : HeaderMap) (user : User) (h : SignsIn st e headers user)
      (huser : user ∈ (e.after st).users)
      (hrows : (e.after st).sessions =
        e.before.sessions.map f ++ [Session.fresh st.toCrates e.draws user])

section step

variable {st : AppState} {e : Event}

/-- What carrying a token does to a row. -/
def Session.retire (cr : Crates) (d : Draws) (headers : HeaderMap) (s : Session) : Session :=
  match CookieManager.get headers sessionCookie with
  | some old =>
      if s.sessionTokenHash = cr.hashToken old ∧ s.revokedAt = none then
        { s with revokedAt := some d.now }
      else s
  | none => s

theorem Db.retire_sessions (db : Db) (cr : Crates) (d : Draws) (headers : HeaderMap) :
    (db.retire cr d headers).sessions = db.sessions.map (·.retire cr d headers) := by
  rw [Db.retire]
  cases hcookie : CookieManager.get headers Session.sessionCookie with
  | none =>
      have hid : ∀ s ∈ db.sessions, s.retire cr d headers = s := fun s _ => by
        rw [Session.retire, hcookie]
      rw [List.map_congr_left hid, List.map_id']
  | some old =>
      dsimp only
      rw [Db.after_sessionsRevokeByHash]
      exact List.map_congr_left fun s _ => by rw [Session.retire, hcookie]

/-- A request that carries a token and ends its session touches the rows with its hash. -/
theorem touched_retire {headers : HeaderMap}
    (hends : ∀ t, Ends st e t ↔ CookieManager.get headers Session.sessionCookie = some t)
    (s : Session) : Touched st e s (s.retire st.toCrates e.draws headers) := by
  have hhash (hash : String) : EndsHash st e hash ↔
      ∃ t, CookieManager.get headers Session.sessionCookie = some t ∧ st.hashToken t = hash :=
    exists_congr fun t => and_congr_left fun _ => hends t
  rw [Session.retire]
  cases hcookie : CookieManager.get headers Session.sessionCookie with
  | none =>
      refine ⟨rfl, rfl, rfl, rfl, ?_⟩
      rw [hhash, hcookie]
      simp
  | some old =>
      dsimp only
      split_ifs with hold
      · refine ⟨rfl, rfl, rfl, rfl, ?_⟩
        rw [hhash, hcookie]
        simp [hold.1]
      · refine ⟨rfl, rfl, rfl, rfl, ?_⟩
        rw [hhash, hcookie]
        constructor
        · refine fun hnone => ⟨hnone, ?_⟩
          rintro ⟨t, ht, heq⟩
          obtain rfl := Option.some.inj ht
          exact hold ⟨heq.symm, hnone⟩
        · exact fun h => h.1

theorem touched_refl (hends : ∀ t, ¬Ends st e t) (s : Session) : Touched st e s s := by
  refine ⟨rfl, rfl, rfl, rfl, fun h => ⟨h, ?_⟩, fun h => h.1⟩
  rintro ⟨t, ht, -⟩
  exact hends t ht

theorem Db.result_sessionsInsert_error {db : Db} {session : Session} {err : SqlError}
    (h : db.result (.sessionsInsert session) = .error err) :
    ∃ s ∈ db.sessions, session.id = s.id ∨ session.sessionTokenHash = s.sessionTokenHash := by
  rw [result, sem, Sql.exec] at h
  split_ifs at h with hclash
  obtain ⟨s, hs, hc⟩ := List.any_eq_true.1 hclash
  exact ⟨s, hs, by simpa [clash] using hc⟩

/-- No session is in the way of the one that the request may start. -/
def Clear (st : AppState) (d : Draws) (db : Db) : Prop :=
  ∀ s ∈ db.sessions, s.id ≠ d.uuid 1 ∧ s.sessionTokenHash ≠ st.hashToken (generateToken (d.secret 0))

theorem retire_keys (cr : Crates) (d : Draws) (headers : HeaderMap) (s : Session) :
    (s.retire cr d headers).id = s.id ∧
      (s.retire cr d headers).sessionTokenHash = s.sessionTokenHash := by
  rw [Session.retire]
  cases CookieManager.get headers Session.sessionCookie with
  | none => exact ⟨rfl, rfl⟩
  | some old =>
      dsimp only
      split_ifs <;> exact ⟨rfl, rfl⟩

/-- Without a failure a session is started. -/
theorem StartAnswer.calm {d : Draws} {headers : HeaderMap} {flaky : Prop} {db db' : Db} {user : User}
    {returnTo : String} {r : Except AppError Response}
    (h : StartAnswer st d headers flaky db user returnTo r db') (hcalm : ¬flaky)
    (hclear : Clear st d db) :
    r = .ok (Pages.sessionStarted st d returnTo) ∧ db'.users = db.users ∧
      db'.sessions = db.sessions.map (·.retire st.toCrates d headers) ++
        [Session.fresh st.toCrates d user] := by
  have husers := h.effect.users
  cases h with
  | failed err db' hdb h =>
      obtain ⟨err, herr⟩ := h.resolve_left hcalm
      obtain ⟨s', hs', hclash⟩ := Db.result_sessionsInsert_error herr
      rw [Db.retire_sessions] at hs'
      obtain ⟨s, hs, rfl⟩ := List.mem_map.1 hs'
      obtain ⟨hid, hhash⟩ := retire_keys st.toCrates d headers s
      rw [hid, hhash] at hclash
      rcases hclash with hid | hhash
      · exact absurd hid.symm (hclear s hs).1
      · exact absurd hhash.symm (hclear s hs).2
  | started h => exact ⟨rfl, husers, by rw [Db.after_sessionsInsert _ h, Db.retire_sessions]⟩

/-- A request that neither starts nor ends a session. -/
theorem step_kept (hin : ∀ headers user, ¬SignsIn st e headers user)
    (hout : ∀ headers, ¬LogsOut e headers) (hrows : (e.after st).sessions = e.before.sessions) :
    ∃ f, (∀ s, Touched st e s (f s)) ∧ SessionStep st e f := by
  refine ⟨id, touched_refl fun t ht => ?_, .kept hin (by rw [hrows, List.map_id])⟩
  cases ht with
  | logout headers h => exact hout headers h
  | signIn headers user h => exact hin headers user h

/-- A request that starts a session ends the one of the token it carries. -/
theorem step_started {headers : HeaderMap} {user : User} (hin : SignsIn st e headers user)
    (husers : user ∈ (e.after st).users)
    (hrows : (e.after st).sessions = e.before.sessions.map (·.retire st.toCrates e.draws headers) ++
      [Session.fresh st.toCrates e.draws user]) :
    ∃ f, (∀ s, Touched st e s (f s)) ∧ SessionStep st e f := by
  refine ⟨_, touched_retire fun t => ⟨fun ht => ?_, fun hcookie => .signIn headers user hin hcookie⟩,
    .started headers user hin husers hrows⟩
  cases ht with
  | logout headers' h => exact absurd h hin.not_logsOut
  | signIn headers' user' h hcookie => rwa [hin.headers_eq h]

theorem not_signsIn_of_unset (hresponse : e.response = e.answer st)
    (h : ¬(e.answer st).Sets Session.sessionCookie) (headers : HeaderMap) (user : User) :
    ¬SignsIn st e headers user := fun hin => h (hresponse ▸ hin.sets)

theorem Event.logout_step {headers : HeaderMap} {csrfToken : Option String}
    (hreq : e.req = .logout headers csrfToken) (hcalm : true ∉ e.faults) :
    ∃ f, (∀ s, Touched st e s (f s)) ∧ SessionStep st e f := by
  have hnotIn : ∀ headers user, ¬SignsIn st e headers user := by
    intro headers' user h
    rcases h.req with ⟨form, h⟩ | ⟨form, h⟩ <;> cases hreq.symm.trans h
  by_cases hcsrf : Csrf.verify headers csrfToken = true
  · have hrows : (e.after st).sessions =
        e.before.sessions.map (·.retire st.toCrates e.draws headers) := by
      rw [Event.after, hreq, serve_logout hcsrf hcalm, Db.retire_sessions]
    refine ⟨_, touched_retire fun t => ⟨fun ht => ?_, fun hcookie => ?_⟩, .kept hnotIn hrows⟩
    · cases ht with
      | logout headers' h hcookie =>
          obtain ⟨csrfToken', hreq', -⟩ := h
          cases hreq.symm.trans hreq'
          exact hcookie
      | signIn headers' user h => exact absurd h (hnotIn headers' user)
    · exact .logout headers ⟨csrfToken, hreq, hcsrf⟩ hcookie
  · have hanswer := e.account_answer st (hreq ▸ .logout headers csrfToken)
    rw [hreq] at hanswer
    refine step_kept hnotIn ?_ ?_
    · rintro headers' ⟨csrfToken', hreq', hcsrf'⟩
      cases hreq.symm.trans hreq'
      exact hcsrf hcsrf'
    · generalize e.answer st = answer at hanswer
      generalize e.after st = db' at hanswer ⊢
      cases hanswer with
      | kept => rfl
      | logout headers csrfToken h => exact absurd h hcsrf

theorem Event.signIn_step {headers : HeaderMap} {form : SignInForm} (hreq : e.req = .signIn headers form)
    (hresponse : e.response = e.answer st) (hcalm : true ∉ e.faults)
    (hclear : Clear st e.draws e.before) :
    ∃ f, (∀ s, Touched st e s (f s)) ∧ SessionStep st e f := by
  have hanswer := e.account_answer st (hreq ▸ .signIn headers form)
  rw [hreq] at hanswer
  have hnotOut : ∀ headers, ¬LogsOut e headers := by
    rintro headers' ⟨csrfToken, hreq', -⟩
    cases hreq.symm.trans hreq'
  have hunset := not_signsIn_of_unset hresponse
  generalize hafter : e.after st = db' at hanswer
  generalize e.answer st = answer at hanswer hunset hresponse
  cases hanswer with
  | kept req r h => exact step_kept (hunset h) hnotOut (by rw [hafter])
  | signIn headers form hcsrf user hmem hemail hverified r db' h =>
      obtain ⟨rfl, husers, hrows⟩ := h.calm hcalm hclear
      subst hafter
      refine step_started (.signIn form hreq hcsrf hmem hemail hverified hresponse) ?_ hrows
      rw [husers]
      exact hmem

theorem Event.signUp_step {headers : HeaderMap} {form : SignUpForm} (hreq : e.req = .signUp headers form)
    (hresponse : e.response = e.answer st) (hcalm : true ∉ e.faults)
    (hclear : Clear st e.draws e.before) :
    ∃ f, (∀ s, Touched st e s (f s)) ∧ SessionStep st e f := by
  have hanswer := e.account_answer st (hreq ▸ .signUp headers form)
  rw [hreq] at hanswer
  have hnotOut : ∀ headers, ¬LogsOut e headers := by
    rintro headers' ⟨csrfToken, hreq', -⟩
    cases hreq.symm.trans hreq'
  have hunset := not_signsIn_of_unset hresponse
  generalize hafter : e.after st = db' at hanswer
  generalize e.answer st = answer at hanswer hunset hresponse
  cases hanswer with
  | kept req r h => exact step_kept (hunset h) hnotOut (by rw [hafter])
  | signUp headers form hcsrf email passwordHash hemail hhash user huser hinsert r db' h =>
      -- The new user has no sessions yet.
      have hsessions : (e.before.after (.usersInsert user)).sessions = e.before.sessions :=
        e.before.after_of_writes (by simp [Stmt.writes])
      have hclear' : Clear st e.draws (e.before.after (.usersInsert user)) := by
        rw [Clear, hsessions]
        exact hclear
      obtain ⟨rfl, husers, hrows⟩ := h.calm hcalm hclear'
      rw [hsessions] at hrows
      subst hafter
      refine step_started (.signUp form hreq hcsrf email passwordHash hemail hhash huser hresponse) ?_
        hrows
      rw [husers, Db.after_usersInsert _ hinsert]
      exact List.mem_append_right _ (List.mem_singleton_self _)

/-- **What one request does to the sessions.** -/
theorem Event.session_step (hresponse : e.response = e.answer st) (hcalm : true ∉ e.faults)
    (hclear : Clear st e.draws e.before) :
    ∃ f, (∀ s, Touched st e s (f s)) ∧ SessionStep st e f := by
  by_cases hout : ∃ headers csrfToken, e.req = .logout headers csrfToken
  · obtain ⟨headers, csrfToken, hreq⟩ := hout
    exact Event.logout_step hreq hcalm
  by_cases hin : ∃ headers form, e.req = .signIn headers form
  · obtain ⟨headers, form, hreq⟩ := hin
    exact Event.signIn_step hreq hresponse hcalm hclear
  by_cases hup : ∃ headers form, e.req = .signUp headers form
  · obtain ⟨headers, form, hreq⟩ := hup
    exact Event.signUp_step hreq hresponse hcalm hclear
  refine step_kept (fun headers user h => ?_) ?_ (e.sessions_kept st ?_ ?_ ?_)
  · rcases h.req with ⟨form, h⟩ | ⟨form, h⟩
    · exact hin ⟨headers, form, h⟩
    · exact hup ⟨headers, form, h⟩
  · rintro headers ⟨csrfToken, hreq, -⟩
    exact hout ⟨headers, csrfToken, hreq⟩
  · exact fun headers form hreq => hin ⟨headers, form, hreq⟩
  · exact fun headers form hreq => hup ⟨headers, form, hreq⟩
  · exact fun headers csrfToken hreq => hout ⟨headers, csrfToken, hreq⟩

end step

/-! ### The session cookie -/

/-- What a request does to the session cookie of the browser that sent it. -/
inductive CookieStep (st : AppState) (e : Event) : Prop where
  | kept (h : e.response.KeepsSession)
  | ended (h : e.response = Pages.sessionEnded st)
  | started (headers : HeaderMap) (user : User) (returnTo : String) (hin : SignsIn st e headers user)
      (h : e.response = Pages.sessionStarted st e.draws returnTo) (huser : user ∈ (e.after st).users)
      (hrow : Session.fresh st.toCrates e.draws user ∈ (e.after st).sessions)

section cookie

variable {st : AppState} {e : Event}

/-- The row of a session that was started. -/
theorem StartAnswer.row {d : Draws} {headers : HeaderMap} {flaky : Prop} {db db' : Db} {user : User}
    {returnTo : String} {r : Response}
    (h : StartAnswer st d headers flaky db user returnTo (.ok r) db') :
    r = Pages.sessionStarted st d returnTo ∧ db'.users = db.users ∧
      Session.fresh st.toCrates d user ∈ db'.sessions := by
  have husers := h.effect.users
  cases h with
  | started h =>
      refine ⟨rfl, husers, ?_⟩
      rw [Db.after_sessionsInsert _ h]
      exact List.mem_append_right _ (List.mem_singleton_self _)

theorem Event.cookie_step (hresponse : e.response = e.answer st) : CookieStep st e := by
  by_cases hsets : (e.answer st).Sets Session.sessionCookie
  · have hanswer := e.account_answer st (serve_sets hsets)
    generalize hafter : e.after st = db' at hanswer
    generalize e.answer st = answer at hanswer hsets hresponse
    generalize hreq : e.req = req at hanswer
    cases hanswer with
    | kept req r h => exact absurd hsets h
    | logout headers csrfToken hcsrf => exact .ended hresponse
    | signIn headers form hcsrf user hmem hemail hverified r db' h =>
        cases r with
        | error err => exact absurd hsets (internalError_sets _)
        | ok r =>
            obtain ⟨rfl, husers, hrow⟩ := h.row
            subst hafter
            refine .started headers user _ (.signIn form hreq hcsrf hmem hemail hverified hresponse)
              hresponse ?_ hrow
            rw [husers]
            exact hmem
    | signUp headers form hcsrf email passwordHash hemail hhash user huser hinsert r db' h =>
        cases r with
        | error err => exact absurd hsets (internalError_sets _)
        | ok r =>
            obtain ⟨rfl, husers, hrow⟩ := h.row
            subst hafter
            refine .started headers user _ (.signUp form hreq hcsrf email passwordHash hemail hhash
              huser hresponse) hresponse ?_ hrow
            rw [husers, Db.after_usersInsert _ hinsert]
            exact List.mem_append_right _ (List.mem_singleton_self _)
  · exact .kept (hresponse ▸ hsets)

/-- A row of a session stays, for the same user and token. -/
theorem Event.sessions_persist (st : AppState) (e : Event) : ∀ s ∈ e.before.sessions,
    ∃ s' ∈ (e.after st).sessions, s'.sessionTokenHash = s.sessionTokenHash ∧ s'.userId = s.userId := by
  have hretire (db : Db) (headers : HeaderMap) : ∀ s ∈ db.sessions,
      ∃ s' ∈ (db.retire st.toCrates e.draws headers).sessions,
        s'.sessionTokenHash = s.sessionTokenHash ∧ s'.userId = s.userId := by
    intro s hs
    rw [Db.retire_sessions]
    refine ⟨_, List.mem_map_of_mem hs, (retire_keys _ _ _ s).2, ?_⟩
    rw [Session.retire]
    cases CookieManager.get headers Session.sessionCookie with
    | none => rfl
    | some old =>
        dsimp only
        split_ifs <;> rfl
  have hstart (db db' : Db) (headers : HeaderMap) (user : User)
      (h : StartEffect st e.draws headers db user db') : ∀ s ∈ db.sessions,
      ∃ s' ∈ db'.sessions, s'.sessionTokenHash = s.sessionTokenHash ∧ s'.userId = s.userId := by
    intro s hs
    cases h with
    | unchanged => exact ⟨s, hs, rfl, rfl⟩
    | retired => exact hretire db headers s hs
    | started h =>
        obtain ⟨s', hs', hsame⟩ := hretire db headers s hs
        rw [Db.after_sessionsInsert _ h]
        exact ⟨s', List.mem_append_left _ hs', hsame⟩
  have heffect := e.effect st
  generalize e.after st = db' at heffect ⊢
  generalize e.req = req at heffect
  generalize e.answer st = answer at heffect
  have hkept (h : db' .sessions = e.before .sessions) (s : Session) (hs : s ∈ e.before.sessions) :
      ∃ s' ∈ db'.sessions, s'.sessionTokenHash = s.sessionTokenHash ∧ s'.userId = s.userId := by
    rw [Db.sessions, h]
    exact ⟨s, hs, rfl, rfl⟩
  cases heffect with
  | authorize headers pairs r db' h => exact hkept (h.frame (by decide))
  | consent headers pairs r db' h => exact hkept (h.frame (by decide) (by decide))
  | token headers pairs r db' h => exact hkept (h.frame (by decide) (by decide))
  | revoke headers pairs r db' h => exact hkept (h.frame (by decide))
  | notAForm => exact hkept rfl
  | registry req hreq r db' h => exact hkept (h.frame (.inr rfl))
  | account req r db' h =>
      cases h with
      | unchanged => exact hkept rfl
      | logout headers csrfToken => exact hretire _ headers
      | signIn headers form hcsrf user hmem hemail hverified db' h => exact hstart _ _ headers user h
      | signUp headers form hcsrf email passwordHash displayName hemail hhash hinsert db' h =>
          have hsessions : ∀ user, (e.before.after (.usersInsert user)).sessions = e.before.sessions :=
            fun user => e.before.after_of_writes (by simp [Stmt.writes])
          intro s hs
          rw [← hsessions] at hs
          exact hstart _ _ headers _ h s hs

end cookie

/-! ### Runs -/

/-- The row of the session that `e` started for `user`, after the later requests. -/
structure RowOf (st : AppState) (later : List Event) (e : Event) (user : User) (s : Session) : Prop where
  id : s.id = e.draws.uuid 1
  userId : s.userId = user.id
  hash : s.sessionTokenHash = st.hashToken e.token
  expiresAt : s.expiresAt = e.draws.now + Session.sessionTtl
  revokedAt : s.revokedAt = none ↔ ∀ e' ∈ later, ¬EndsHash st e' (st.hashToken e.token)

/-- The sessions of the table are the sessions that were started. -/
structure SessionHistory (st : AppState) (es : List Event) (db : Db) : Prop where
  rows : ∀ s ∈ db.sessions, ∃ later e earlier headers user, es = later ++ e :: earlier ∧
    SignsIn st e headers user ∧ RowOf st later e user s
  started : ∀ later e earlier headers user, es = later ++ e :: earlier → SignsIn st e headers user →
    user ∈ db.users ∧ ∃ s ∈ db.sessions, RowOf st later e user s

section runs

variable {st : AppState} {es later earlier : List Event} {e : Event} {db : Db} {user : User}
  {s s' : Session} {f : Session → Session}

theorem RowOf.touched (h : RowOf st later e user s) {x : Event} (ht : Touched st x s s') :
    RowOf st (x :: later) e user s' := by
  refine ⟨ht.id.trans h.id, ht.userId.trans h.userId, ht.hash.trans h.hash,
    ht.expiresAt.trans h.expiresAt, ?_⟩
  rw [ht.revokedAt, h.revokedAt, h.hash, List.forall_mem_cons, and_comm]

theorem rowOf_fresh (st : AppState) (e : Event) (user : User) :
    RowOf st [] e user (Session.fresh st.toCrates e.draws user) :=
  ⟨rfl, rfl, rfl, rfl, fun _ _ he' => absurd he' List.not_mem_nil, fun _ => rfl⟩

/-- A new session is in nobody's way, if no two secrets have the same hash. -/
theorem SessionHistory.clear (h : SessionHistory st es db) {d : Draws} (fresh : Fresh es d)
    (htokens : ∀ e ∈ es, st.hashToken e.token = st.hashToken (generateToken (d.secret 0)) →
      e.token = generateToken (d.secret 0)) : Clear st d db := by
  intro s hs
  obtain ⟨later, e, earlier, headers, user, rfl, -, hrow⟩ := h.rows s hs
  have he : e ∈ later ++ e :: earlier := List.mem_append_right _ List.mem_cons_self
  refine ⟨fun hid => ?_, fun hhash => ?_⟩
  · exact fresh.uuid_new e he 1 1 (hrow.id.symm.trans hid)
  · have htoken := htokens e he (hrow.hash.symm.trans hhash)
    exact fresh.secret_new e he 0 0 (generateToken_inj htoken)

/-- **What one request preserves.** -/
theorem SessionHistory.step (h : SessionHistory st es e.before) (hu : e.before.Unique)
    (htouched : ∀ s, Touched st e s (f s)) (hstep : SessionStep st e f) :
    SessionHistory st (e :: es) (e.after st) := by
  -- The older sessions.
  have hrows (s : Session) (hs : s ∈ e.before.sessions.map f) : ∃ later e' earlier headers user,
      e :: es = later ++ e' :: earlier ∧ SignsIn st e' headers user ∧ RowOf st later e' user s := by
    obtain ⟨s₀, hs₀, rfl⟩ := List.mem_map.1 hs
    obtain ⟨later, e', earlier, headers, user, rfl, hin, hrow⟩ := h.rows s₀ hs₀
    exact ⟨e :: later, e', earlier, headers, user, rfl, hin, hrow.touched (htouched s₀)⟩
  have hstarted (later : List Event) (e' : Event) (earlier : List Event) (headers : HeaderMap)
      (user : User) (hes : es = later ++ e' :: earlier) (hin : SignsIn st e' headers user) :
      user ∈ (e.after st).users ∧ ∃ s ∈ e.before.sessions.map f, RowOf st (e :: later) e' user s := by
    obtain ⟨huser, s₀, hs₀, hrow⟩ := h.started later e' earlier headers user hes hin
    exact ⟨e.users_subset st huser, f s₀, List.mem_map_of_mem hs₀, hrow.touched (htouched s₀)⟩
  cases hstep with
  | kept hnot hafter =>
      refine ⟨by rw [hafter]; exact hrows, fun later e' earlier headers user hes hin => ?_⟩
      cases later with
      | nil =>
          obtain ⟨rfl, -⟩ := List.cons.inj hes
          exact absurd hin (hnot headers user)
      | cons x later =>
          obtain ⟨rfl, hes'⟩ := List.cons.inj hes
          rw [hafter]
          exact hstarted later e' earlier headers user hes' hin
  | started headers₀ user₀ hin₀ huser₀ hafter =>
      refine ⟨fun s hs => ?_, fun later e' earlier headers user hes hin => ?_⟩
      · rw [hafter] at hs
        rcases List.mem_append.1 hs with hs | hs
        · exact hrows s hs
        · rw [List.mem_singleton.1 hs]
          exact ⟨[], e, es, headers₀, user₀, rfl, hin₀, rowOf_fresh st e user₀⟩
      · rw [hafter]
        cases later with
        | nil =>
            obtain ⟨rfl, -⟩ := List.cons.inj hes
            obtain rfl := hin₀.eq hu hin
            exact ⟨huser₀, _, List.mem_append_right _ (List.mem_singleton_self _), rowOf_fresh st e user₀⟩
        | cons x later =>
            obtain ⟨rfl, hes'⟩ := List.cons.inj hes
            obtain ⟨huser, s, hs, hrow⟩ := hstarted later e' earlier headers user hes' hin
            exact ⟨huser, s, List.mem_append_left _ hs, hrow⟩

/-- **The table of sessions tells the history of sign-ins and logouts.** -/
theorem Run.session_history (run : Run st es db) (hcalm : ∀ e ∈ es, true ∉ e.faults)
    (htokens : ∀ e ∈ es, ∀ e' ∈ es, st.hashToken e.token = st.hashToken e'.token →
      e.token = e'.token) : SessionHistory st es db := by
  induction es generalizing db with
  | nil =>
      cases run
      refine ⟨fun s hs => absurd hs List.not_mem_nil, fun later e earlier headers user hes => ?_⟩
      exact absurd hes (by simp)
  | cons e es ih =>
      obtain ⟨hbefore, fresh, hresponse, rfl⟩ := run.cons
      have hhistory : SessionHistory st es e.before :=
        ih hbefore (fun e he => hcalm e (List.mem_cons_of_mem _ he))
          fun e he e' he' => htokens e (List.mem_cons_of_mem _ he) e' (List.mem_cons_of_mem _ he')
      have hclear : Clear st e.draws e.before := hhistory.clear fresh fun e' he' =>
        htokens e' (List.mem_cons_of_mem _ he') e List.mem_cons_self
      obtain ⟨f, htouched, hstep⟩ :=
        Event.session_step hresponse (hcalm e List.mem_cons_self) hclear
      exact hhistory.step hbefore.unique htouched hstep

end runs

/-! ### Resolving a token -/

/-- `Session.findActive` finds a session of `user`. -/
def Resolves (cr : Crates) (db : Db) (d : Draws) (t : String) (user : User) : Prop :=
  ∃ session, ((Session.findActive cr d t).serve [] db).1 = .ok (some (session, user))

/-- The session of the token `t` was started for `user`, is less than seven days old at the time
`now`, and no later request has ended it. -/
inductive Lives (st : AppState) (es : List Event) (t : String) (user : User) (now : Instant) : Prop where
  | intro (later : List Event) (e : Event) (earlier : List Event) (headers : HeaderMap)
      (hes : es = later ++ e :: earlier) (hin : SignsIn st e headers user) (htoken : t = e.token)
      (hage : now - e.draws.now < Duration.days 7) (hlive : ∀ e' ∈ later, ¬Ends st e' t)

/-- The strings that matter when the token `t` is looked up. -/
inductive SessionString (st : AppState) (es : List Event) (t : String) : String → Prop where
  | asked : SessionString st es t t
  | drawn (e : Event) (he : e ∈ es) : SessionString st es t e.token
  | ended (e : Event) (he : e ∈ es) (s : String) (h : Ends st e s) : SessionString st es t s

/-- No request fails half-way, and SHA-256 does not collide on the strings that matter. -/
structure Calm (st : AppState) (es : List Event) (t : String) : Prop where
  faultless : ∀ e ∈ es, true ∉ e.faults
  injective : ∀ s s', SessionString st es t s → SessionString st es t s' →
    st.sha256 (utf8 s) = st.sha256 (utf8 s') → s = s'

section resolving

variable {st : AppState} {es later earlier : List Event} {e : Event} {db : Db} {user : User}
  {t : String} {d : Draws}

theorem findActive_serve (cr : Crates) (d : Draws) (t : String) (db : Db) :
    (Session.findActive cr d t).serve [] db = (.ok ((db.sessions.find? fun s =>
      s.sessionTokenHash = cr.hashToken t ∧ s.revokedAt = none ∧ d.now < s.expiresAt).bind fun s =>
        (db.users.find? fun u => u.id = s.userId).map fun u => (s, u)), db) := by
  have hwp : (Session.findActive cr d t).wp (true ∈ ([] : List Bool)) (fun r c => r =
      .ok ((db.sessions.find? fun s => s.sessionTokenHash = cr.hashToken t ∧ s.revokedAt = none ∧
        d.now < s.expiresAt).bind fun s => (db.users.find? fun u => u.id = s.userId).map fun u =>
          (s, u)) ∧ c.db = db) { db } := by
    simp only [Session.findActive, Prog.bind_eq, Prog.pure_eq]
    rw [wp_query_auto]
    refine ⟨fun h => absurd h List.not_mem_nil, fun found hfound => ?_, by rintro e ⟨⟩⟩
    rw [db.after_of_reads rfl]
    have hfound : db.sessions.find? (fun s => s.sessionTokenHash = cr.hashToken t ∧
      s.revokedAt = none ∧ d.now < s.expiresAt) = found := Except.ok.inj hfound
    rw [hfound]
    cases found with
    | none => exact ⟨rfl, rfl⟩
    | some session =>
        dsimp only
        rw [wp_query_auto]
        refine ⟨fun h => absurd h List.not_mem_nil, fun owner howner => ?_, by rintro e ⟨⟩⟩
        rw [db.after_of_reads rfl]
        have howner : db.users.find? (fun u => u.id = session.userId) = owner :=
          Except.ok.inj howner
        rw [Option.bind_some, howner]
        cases owner with
        | none => exact ⟨rfl, rfl⟩
        | some user => exact ⟨rfl, rfl⟩
  have hserve := Prog.wp_serve (S := Sharp) (R := fun r db' => r = _ ∧ db' = db) _ [] db hwp
  exact Prod.ext hserve.1 hserve.2

/-- A token resolves by an unrevoked row with its hash. -/
theorem resolves_iff (hu : db.Unique) : Resolves st.toCrates db d t user ↔
    ∃ s ∈ db.sessions, s.sessionTokenHash = st.hashToken t ∧ s.revokedAt = none ∧
      d.now < s.expiresAt ∧ user ∈ db.users ∧ user.id = s.userId := by
  rw [Resolves, findActive_serve]
  constructor
  · rintro ⟨session, h⟩
    obtain ⟨s, hs, howner⟩ := Option.bind_eq_some_iff.1 (Except.ok.inj h)
    obtain ⟨u, hfound, heq⟩ := Option.map_eq_some_iff.1 howner
    cases heq
    have hp := List.find?_some hs
    simp only [decide_eq_true_eq] at hp
    have hid : user.id = session.userId := by simpa using List.find?_some hfound
    exact ⟨session, List.mem_of_find?_eq_some hs, hp.1, hp.2.1, hp.2.2,
      List.mem_of_find?_eq_some hfound, hid⟩
  · rintro ⟨s, hs, hhash, hrevoked, hexpires, huser, hid⟩
    have hfound : db.sessions.find? (fun s => s.sessionTokenHash = st.hashToken t ∧
        s.revokedAt = none ∧ d.now < s.expiresAt) = some s := by
      refine hu.find (t := .sessions) hs (by simp [hhash, hrevoked, hexpires]) fun s' hp => ?_
      rw [decide_eq_true_eq] at hp
      simp [clash, hp.1, hhash]
    have howner : db.users.find? (fun u => u.id = s.userId) = some user := by
      refine hu.find (t := .users) huser (by simp [hid]) fun u huid => ?_
      rw [decide_eq_true_eq] at huid
      simp [clash, huid, hid]
    exact ⟨s, by rw [hfound, Option.bind_some, howner, Option.map_some]⟩

theorem Calm.hash_inj (h : Calm st es t) {s s' : String} (hs : SessionString st es t s)
    (hs' : SessionString st es t s') (heq : st.hashToken s = st.hashToken s') : s = s' :=
  h.injective s s' hs hs' (Vector.toList_inj.1 (base64url_inj heq))

/-- **A token resolves exactly while its session lives.** -/
theorem Run.resolves_iff_lives (run : Run st es db) (h : Calm st es t) (d : Draws) (user : User) :
    Resolves st.toCrates db d t user ↔ Lives st es t user d.now := by
  have hhistory : SessionHistory st es db := run.session_history h.faultless fun e he e' he' =>
    h.hash_inj (.drawn e he) (.drawn e' he')
  rw [resolves_iff run.unique]
  constructor
  · rintro ⟨s, hs, hhash, hrevoked, hexpires, huser, hid⟩
    obtain ⟨later, e, earlier, headers, user', rfl, hin, hrow⟩ := hhistory.rows s hs
    have he : e ∈ later ++ e :: earlier := List.mem_append_right _ List.mem_cons_self
    have htoken : t = e.token := h.hash_inj .asked (.drawn e he) (hhash.symm.trans hrow.hash)
    obtain ⟨huser', -⟩ := hhistory.started later e earlier headers user' rfl hin
    have hsame : user = user' := run.unique.eq (t := .users) huser huser'
      (by simp [clash, hid, hrow.userId])
    subst hsame
    refine .intro later e earlier headers rfl hin htoken ?_ fun e' he' hends => ?_
    · rw [hrow.expiresAt] at hexpires
      exact sub_left_lt_of_lt_add hexpires
    · exact hrow.revokedAt.1 hrevoked e' he' ⟨t, hends, by rw [htoken]⟩
  · rintro ⟨later, e, earlier, headers, rfl, hin, rfl, hage, hlive⟩
    obtain ⟨huser, s, hs, hrow⟩ := hhistory.started later e earlier headers user rfl hin
    have he : e ∈ later ++ e :: earlier := List.mem_append_right _ List.mem_cons_self
    refine ⟨s, hs, hrow.hash, hrow.revokedAt.2 ?_, ?_, huser, hrow.userId.symm⟩
    · rintro e' he' ⟨t', hends, hhash⟩
      have he'' : e' ∈ later ++ e :: earlier := List.mem_append_left _ he'
      have ht' : t' = e.token := h.hash_inj (.ended e' he'' t' hends) (.drawn e he) hhash
      exact hlive e' he' (ht' ▸ hends)
    · rw [hrow.expiresAt]
      exact lt_add_of_sub_left_lt hage

theorem Calm.tail (h : Calm st (e :: es) t) : Calm st es t := by
  have hstring (s : String) (hs : SessionString st es t s) : SessionString st (e :: es) t s := by
    cases hs with
    | asked => exact .asked
    | drawn e' he => exact .drawn e' (List.mem_cons_of_mem _ he)
    | ended e' he s hends => exact .ended e' (List.mem_cons_of_mem _ he) s hends
  exact ⟨fun e' he => h.faultless e' (List.mem_cons_of_mem _ he),
    fun s s' hs hs' => h.injective s s' (hstring s hs) (hstring s' hs')⟩

/-- A drawn token names its event. -/
theorem Run.eq_of_token (run : Run st es db) {e e' : Event} (he : e ∈ es) (he' : e' ∈ es)
    (h : e.token = e'.token) : e = e' := by
  by_contra hne
  have hor : es.Pairwise fun e e' => DrawnAfter e e' ∨ DrawnAfter e' e := run.pairwise.imp .inl
  have hsymm : Std.Symm fun e e' : Event => DrawnAfter e e' ∨ DrawnAfter e' e := ⟨fun _ _ => Or.symm⟩
  rcases hor.forall he he' hne with h' | h'
  · exact h'.secret 0 0 (generateToken_inj h)
  · exact h'.secret 0 0 (generateToken_inj h.symm)

/-- An event stands at one place of a run. -/
theorem Run.nodup (run : Run st es db) : es.Nodup :=
  run.pairwise.imp fun h heq => h.uuid 0 0 (by rw [heq])

/-- **A session that was ended does not come back.** -/
theorem Lives.not_ended {now : Instant} (h : Lives st es t user now) (run : Run st es db)
    (hes : es = later ++ e :: earlier) (hends : Ends st e t) {e₀ : Event} (he₀ : e₀ ∈ earlier)
    (htoken : t = e₀.token) : False := by
  obtain ⟨later', e₁, earlier', headers, hes', hin, htoken', -, hlive⟩ := h
  obtain ⟨mid, older, rfl⟩ := List.append_of_mem he₀
  have hmem : e₁ ∈ es := hes' ▸ List.mem_append_right _ List.mem_cons_self
  have hmem₀ : e₀ ∈ es := by
    rw [hes]
    exact List.mem_append_right _ (List.mem_cons_of_mem _ he₀)
  obtain rfl := run.eq_of_token hmem hmem₀ (htoken'.symm.trans htoken)
  -- There is one place where the session was started, and `e` comes after it.
  have hsplit : (later ++ e :: mid) ++ e₁ :: older = later' ++ e₁ :: earlier' := by
    rw [← hes', hes, List.append_assoc, List.cons_append]
  have hnodup : ((later ++ e :: mid) ++ e₁ :: older).Nodup := by
    rw [hsplit, ← hes']
    exact run.nodup
  obtain ⟨-, hrest, hdisjoint⟩ := List.nodup_append.1 hnodup
  have hnot : e₁ ∉ later ++ e :: mid := fun hin => hdisjoint e₁ hin e₁ List.mem_cons_self rfl
  have hnot' : e₁ ∉ older := (List.nodup_cons.1 hrest).1
  obtain ⟨rfl, -⟩ := (List.append_cons_inj_of_notMem hnot hnot').1 hsplit
  exact hlive e (List.mem_append_right _ List.mem_cons_self) hends

end resolving

/-- **Sessions live exactly as long as they should.**  What was ended stays ended, and a request
touches no session but the one whose token it carries and the one it starts. -/
theorem sessions_live {st : AppState} {es : List Event} {db : Db} (run : Run st es db) {t : String}
    (h : Calm st es t) (d : Draws) :
    (∀ user, Resolves st.toCrates db d t user ↔ Lives st es t user d.now) ∧
    (∀ later e earlier, es = later ++ e :: earlier → Ends st e t → (∃ e₀ ∈ earlier, t = e₀.token) →
      ∀ user, ¬Resolves st.toCrates db d t user) ∧
    ∀ e earlier, es = e :: earlier → ¬Ends st e t → t ≠ e.token → ∀ user,
      (Resolves st.toCrates db d t user ↔ Resolves st.toCrates e.before d t user) := by
  refine ⟨run.resolves_iff_lives h d, ?_, ?_⟩
  · rintro later e earlier hes hends ⟨e₀, he₀, htoken⟩ user hresolves
    have hlives := (run.resolves_iff_lives h d user).1 hresolves
    exact hlives.not_ended run hes hends he₀ htoken
  · rintro e earlier rfl hends hne user
    have hbefore := run.cons.1
    rw [run.resolves_iff_lives h d user, hbefore.resolves_iff_lives h.tail d user]
    constructor
    · rintro ⟨later, e', older, headers, hes, hin, htoken, hage, hlive⟩
      cases later with
      | nil =>
          obtain ⟨rfl, -⟩ := List.cons.inj hes
          exact absurd htoken hne
      | cons x later =>
          obtain ⟨rfl, hes'⟩ := List.cons.inj hes
          exact .intro later e' older headers hes' hin htoken hage
            fun e' he' => hlive e' (List.mem_cons_of_mem _ he')
    · rintro ⟨later, e', older, headers, rfl, hin, htoken, hage, hlive⟩
      refine .intro (e :: later) e' older headers rfl hin htoken hage fun x hx => ?_
      rcases List.mem_cons.1 hx with rfl | hx
      · exact hends
      · exact hlive x hx

namespace Sample

theorem not_ends {e : Event} (he : e ∈ registrations) (s : String) : ¬Ends state e s := by
  have hcookie : CookieManager.get browser Session.sessionCookie = none := by decide +kernel
  simp only [registrations, List.mem_cons, List.not_mem_nil, or_false] at he
  intro h
  cases h with
  | logout headers h hget =>
      obtain ⟨csrfToken, hreq, -⟩ := h
      rcases he with rfl | rfl | rfl <;> cases hreq
  | signIn headers user h hget =>
      rcases h.req with ⟨form, hreq⟩ | ⟨form, hreq⟩
      · rcases he with rfl | rfl | rfl <;> cases hreq
      · rcases he with rfl | rfl | rfl <;> cases hreq
        exact absurd (hcookie.symm.trans hget) (by simp)

/-- Nothing goes wrong in the run of the registrations. -/
theorem calm : Calm state registrations (event 1 signUp Db.init).token where
  faultless e he := by
    simp only [registrations, List.mem_cons, List.not_mem_nil, or_false] at he
    rcases he with rfl | rfl | rfl <;> exact List.not_mem_nil
  injective s s' hs hs' h := by
    have hdrawn {s : String} (hs : SessionString state registrations (event 1 signUp Db.init).token s) :
        s ∈ drawn := by
      cases hs with
      | asked => decide +kernel
      | drawn e he =>
          simp only [registrations, List.mem_cons, List.not_mem_nil, or_false] at he
          rcases he with rfl | rfl | rfl <;> decide +kernel
      | ended e he s h => exact absurd h (not_ends he s)
    have hall : ∀ s ∈ drawn, ∀ s' ∈ drawn, state.sha256 (utf8 s) = state.sha256 (utf8 s') → s = s' := by
      decide +kernel
    exact hall s (hdrawn hs) s' (hdrawn hs') h

end Sample

theorem sessions_live_signedUp : Resolves Sample.state.toCrates Sample.registered (Sample.draws 4)
      (Sample.event 1 Sample.signUp Db.init).token Sample.user ↔
    Lives Sample.state Sample.registrations (Sample.event 1 Sample.signUp Db.init).token Sample.user
      (Sample.draws 4).now :=
  (sessions_live Sample.served_registered.run Sample.calm (Sample.draws 4)).1 Sample.user

end SharpOauth
