import SharpOauth.Server
import SharpOauth.TwoRuns

/-! # What the statements do to the tables

`db.result q` and `db.after q` are the answer to a statement and the tables it leaves behind.
A statement leaves the tables alone that it does not write to (`after_of_writes`), and all of
them keep the unique constraints (`sharp_lawful`), which therefore hold in every reachable
state (`Run.unique`). -/

namespace SharpOauth

namespace Db

/-- What a statement returns. -/
def result (q : Stmt) (db : Db) : Except SqlError (Ret q) := ((sem q).exec clash db).1

/-- The tables after a statement. -/
def after (q : Stmt) (db : Db) : Db := ((sem q).exec clash db).2

/-- The primary keys and unique constraints of the migrations hold. -/
abbrev Unique (db : Db) : Prop := Store.Unique clash db

end Db

section rules

variable {ε α : Type} [Into SqlError ε] {flaky : Prop} {Q : Except ε α → Conn Sharp → Prop} {db s : Db}

theorem wp_query (c : Conn Sharp) (q : Stmt) (f : Ret q → Service ε α) :
    (Prog.bind (query q) f).wp flaky Q c ↔
      (flaky → Q (.error (Into.into SqlError.failed)) c) ∧
        (∀ r, Db.result q c.view = .ok r → (f r).wp flaky Q (c.put (Db.after q c.view))) ∧
        (∀ e, Db.result q c.view = .error e →
          Q (.error (Into.into e)) (c.put (Db.after q c.view))) := by
  rw [Prog.wp_query, Db.result, Db.after]
  refine and_congr Iff.rfl ?_
  dsimp only [Sharp]
  rcases (sem q).exec clash c.view with ⟨r | r, s⟩ <;> simp

/-- A statement outside a transaction. -/
theorem wp_query_auto (q : Stmt) (f : Ret q → Service ε α) :
    (Prog.bind (query q) f).wp flaky Q ⟨db, none⟩ ↔
      (flaky → Q (.error (Into.into SqlError.failed)) ⟨db, none⟩) ∧
        (∀ r, db.result q = .ok r → (f r).wp flaky Q ⟨db.after q, none⟩) ∧
        (∀ e, db.result q = .error e → Q (.error (Into.into e)) ⟨db.after q, none⟩) :=
  wp_query ⟨db, none⟩ q f

/-- A statement inside a transaction. -/
theorem wp_query_tx (q : Stmt) (f : Ret q → Service ε α) :
    (Prog.bind (query q) f).wp flaky Q ⟨db, some s⟩ ↔
      (flaky → Q (.error (Into.into SqlError.failed)) ⟨db, some s⟩) ∧
        (∀ r, s.result q = .ok r → (f r).wp flaky Q ⟨db, some (s.after q)⟩) ∧
        (∀ e, s.result q = .error e → Q (.error (Into.into e)) ⟨db, some (s.after q)⟩) :=
  wp_query ⟨db, some s⟩ q f

theorem wp_begin (f : Unit → Service ε α) : (Prog.bind Handler.begin f).wp flaky Q ⟨db, none⟩ ↔
    (flaky → Q (.error (Into.into SqlError.failed)) ⟨db, none⟩) ∧
      (f ()).wp flaky Q ⟨db, some db⟩ := Iff.rfl

theorem wp_commit (f : Unit → Service ε α) : (Prog.bind Handler.commit f).wp flaky Q ⟨db, some s⟩ ↔
    (flaky → Q (.error (Into.into SqlError.failed)) ⟨db, some s⟩) ∧
      (f ()).wp flaky Q ⟨s, none⟩ := Iff.rfl

end rules

/-! ### Two runs -/

section pairs

variable {ε α : Type} [Into SqlError ε] {Q : Except ε α → Conn Sharp → Conn Sharp → Prop}
  {db db' s s' : Db} {q q' : Stmt} {r : Ret q} {r' : Ret q'} {f : Ret q → Service ε α}
  {f' : Ret q' → Service ε α}

/-- Two statements outside a transaction. -/
theorem agrees_query_auto (hfailed : Q (.error (Into.into SqlError.failed)) ⟨db, none⟩ ⟨db', none⟩)
    (hr : db.result q = .ok r) (hr' : db'.result q' = .ok r')
    (h : (f r).agrees Q (f' r') ⟨db.after q, none⟩ ⟨db'.after q', none⟩) :
    (Prog.bind (query q) f).agrees Q (Prog.bind (query q') f') ⟨db, none⟩ ⟨db', none⟩ :=
  Prog.agrees_query (S := Sharp) hfailed hr hr' h

/-- Two statements inside a transaction. -/
theorem agrees_query_tx
    (hfailed : Q (.error (Into.into SqlError.failed)) ⟨db, some s⟩ ⟨db', some s'⟩)
    (hr : s.result q = .ok r) (hr' : s'.result q' = .ok r')
    (h : (f r).agrees Q (f' r') ⟨db, some (s.after q)⟩ ⟨db', some (s'.after q')⟩) :
    (Prog.bind (query q) f).agrees Q (Prog.bind (query q') f') ⟨db, some s⟩ ⟨db', some s'⟩ :=
  Prog.agrees_query (S := Sharp) hfailed hr hr' h

end pairs

/-! ### Writes -/

/-- The tables a statement writes to. -/
def Stmt.writes : Stmt → List Table
  | .usersInsert _ => [.users]
  | .sessionsInsert _ | .sessionsRevokeByHash _ _ => [.sessions]
  | .scopesInsert _ => [.scopes]
  | .clientsInsert _ | .clientsUpdateDetails _ _ _ _ _ | .clientsUpdateSecretHash _ _ _ => [.clients]
  | .clientsDelete _ => [.clients, .codes, .consents, .refreshTokens]
  | .codesInsert _ | .codesClaim _ _ => [.codes]
  | .consentsUpsert _ _ _ _ _ => [.consents]
  | .tokensInsert _ | .tokensMarkRotated _ _ | .tokensRevokeFamily _ _
  | .tokensRevokeByAuthorizationCode _ _ => [.refreshTokens]
  | .usersFindByEmail _ | .usersFindById _ | .sessionsFindActiveByHash _ _ | .scopesListAll
  | .scopesFindByNames _ | .clientsFindByClientId _ | .clientsListByOwner _
  | .clientsCountByOwner _ | .clientsFindOwned _ _ | .codesFindByHash _ | .consentsFindActive _ _
  | .tokensFindByHash _ | .tokensFindByHashForUpdate _ => []

theorem Store.ite_set_ne {s : Store Row} {t t' : Table} {rows : List (Row t)} {b : Prop}
    [Decidable b] {x y : Except SqlError Unit} (h : t' ≠ t) :
    (if b then (x, s) else (y, s.set t rows)).2 t' = s t' := by
  split_ifs
  · rfl
  · exact s.set_ne rows h

/-- A statement leaves the tables it does not write to alone. -/
theorem Db.after_of_writes {q : Stmt} (db : Db) {t : Table} (h : t ∉ q.writes) :
    db.after q t = db t := by
  have hne : ∀ t', q.writes = [t'] → t ≠ t' := fun t' h' ht => h (by rw [h', ht]; simp)
  cases q with
  | clientsDelete id =>
      rw [after, sem, Sql.exec]
      split
      · rename_i s' hd
        rw [deleteClient] at hd
        split_ifs at hd
        obtain rfl := Option.some.inj hd
        cases t <;> first | rfl | simp [Stmt.writes] at h
      · rfl
  | usersInsert _ => exact Store.ite_set_ne (hne _ rfl)
  | sessionsInsert _ => exact Store.ite_set_ne (hne _ rfl)
  | scopesInsert _ => exact Store.ite_set_ne (hne _ rfl)
  | clientsInsert _ => exact Store.ite_set_ne (hne _ rfl)
  | codesInsert _ => exact Store.ite_set_ne (hne _ rfl)
  | tokensInsert _ => exact Store.ite_set_ne (hne _ rfl)
  | sessionsRevokeByHash _ _ => exact Store.set_ne db _ (hne _ rfl)
  | clientsUpdateDetails _ _ _ _ _ => exact Store.set_ne db _ (hne _ rfl)
  | clientsUpdateSecretHash _ _ _ => exact Store.set_ne db _ (hne _ rfl)
  | codesClaim _ _ => exact Store.set_ne db _ (hne _ rfl)
  | tokensMarkRotated _ _ => exact Store.set_ne db _ (hne _ rfl)
  | tokensRevokeFamily _ _ => exact Store.set_ne db _ (hne _ rfl)
  | tokensRevokeByAuthorizationCode _ _ => exact Store.set_ne db _ (hne _ rfl)
  | consentsUpsert id userId clientId scopes now =>
      rw [after, sem, Sql.exec]
      split_ifs
      · exact Store.set_ne db _ (hne _ rfl)
      · rfl
      · exact Store.set_ne db _ (hne _ rfl)
  | _ => rfl

/-- A statement that only reads. -/
theorem Db.after_of_reads {q : Stmt} (db : Db) (h : q.writes = []) : db.after q = db := by
  funext t
  exact db.after_of_writes (by simp [h])

/-- A statement that fails changes nothing. -/
theorem Db.after_of_error {q : Stmt} {db : Db} {e : SqlError} (h : db.result q = .error e) :
    db.after q = db := Sql.exec_error h

/-! ### Unique constraints -/

theorem clash_symm (t : Table) (x y : Row t) : clash t x y = clash t y x := by
  cases t <;> simp [clash, eq_comm]

theorem deleteClient_unique {id : Uuid} {s s' : Store Row} (h : deleteClient id s = some s')
    (hs : s.Unique clash) : s'.Unique clash := by
  rw [deleteClient] at h
  split_ifs at h
  obtain rfl := Option.some.inj h
  intro t
  cases t with
  | users => exact hs .users
  | sessions => exact hs .sessions
  | scopes => exact hs .scopes
  | clients => exact (hs .clients).sublist List.filter_sublist
  | codes => exact (hs .codes).sublist List.filter_sublist
  | consents => exact (hs .consents).sublist List.filter_sublist
  | refreshTokens =>
      refine ((hs .refreshTokens).sublist List.filter_sublist).map _ fun x y hxy => ?_
      simp only [clash] at hxy ⊢
      split_ifs <;> exact hxy

theorem sharp_lawful : Sharp.Lawful where
  clash_symm := clash_symm
  keepsKeys q := by
    cases q with
    | clientsDelete id => exact fun s s' h hs => deleteClient_unique h hs
    | _ =>
      first
        | trivial
        | exact ⟨fun x y => rfl, fun x y => rfl⟩

theorem Run.unique {st : AppState} {es : List Event} {db : Db} (run : Run st es db) : db.Unique := by
  induction run with
  | init =>
      intro t
      cases t <;> decide
  | step run req d faults fresh ih => exact Prog.run_unique sharp_lawful _ faults _ ih ih

/-- Two rows that clash are one row. -/
theorem Db.Unique.eq {db : Db} (hu : db.Unique) {t : Table} {x y : Row t} (hx : x ∈ db t)
    (hy : y ∈ db t) (h : clash t x y = true) : x = y := by
  have hsymm : Std.Symm fun x y : Row t => clash t x y = false :=
    ⟨fun x y hxy => by rwa [clash_symm]⟩
  by_contra hne
  have hclash : clash t x y = false := (hu t).forall hx hy hne
  rw [h] at hclash
  cases hclash

/-- **Lookups by unique columns.**  They find the row that is there. -/
theorem Db.Unique.find {db : Db} (hu : db.Unique) {t : Table} {p : Row t → Bool} {x : Row t}
    (hx : x ∈ db t) (hp : p x = true) (h : ∀ y, p y = true → clash t y x = true) :
    (db t).find? p = some x :=
  find_only hx hp fun y hy hpy => hu.eq hy hx (h y hpy)

/-! ### Codes -/

/-- What claiming a hash does to a code. -/
def AuthorizationCode.claim (codeHash : String) (now : Instant) (c : AuthorizationCode) :
    AuthorizationCode :=
  if c.codeHash = codeHash ∧ c.usedAt = none then { c with usedAt := some now } else c

namespace Db

variable (db : Db)

@[simp] theorem after_codesClaim (codeHash : String) (now : Instant) :
    (db.after (.codesClaim codeHash now)).codes = db.codes.map (·.claim codeHash now) := by
  simp [after, sem, Sql.exec, AuthorizationCode.claim]

theorem result_codesClaim (codeHash : String) (now : Instant) :
    db.result (.codesClaim codeHash now) = .ok
      ((db.codes.filter fun c => c.codeHash = codeHash ∧ c.usedAt = none).map
        fun c => { c with usedAt := some now }).head? := rfl

/-- Claiming a hash that no unused code has changes nothing. -/
theorem after_codesClaim_none {codeHash : String} {now : Instant}
    (h : ∀ c ∈ db.codes, c.codeHash = codeHash → c.usedAt ≠ none) :
    db.after (.codesClaim codeHash now) = db := by
  funext t
  by_cases ht : t = .codes
  · subst ht
    have hid : ∀ c ∈ db.codes, c.claim codeHash now = id c := fun c hc =>
      if_neg fun hc' => h c hc hc'.1 hc'.2
    exact (after_codesClaim db codeHash now).trans ((List.map_congr_left hid).trans (List.map_id _))
  · exact after_of_writes db (by simp [Stmt.writes, ht])

theorem after_codesInsert {c : AuthorizationCode} {u : Unit}
    (h : db.result (.codesInsert c) = .ok u) : (db.after (.codesInsert c)).codes = db.codes ++ [c] := by
  rw [result, sem, Sql.exec] at h
  split_ifs at h with hclash
  rw [codes, after, sem, Sql.exec, if_neg hclash]
  exact Store.set_same db .codes _

theorem result_codesInsert_error {c : AuthorizationCode} {e : SqlError}
    (h : db.result (.codesInsert c) = .error e) :
    ∃ c' ∈ db.codes, c.id = c'.id ∨ c.codeHash = c'.codeHash := by
  rw [result, sem, Sql.exec] at h
  split_ifs at h with hclash
  obtain ⟨c', hc', hc⟩ := List.any_eq_true.1 hclash
  exact ⟨c', hc', by simpa [clash] using hc⟩

end Db

/-! ### Users and sessions -/

namespace Db

variable (db : Db)

theorem after_usersInsert {user : User} {u : Unit} (h : db.result (.usersInsert user) = .ok u) :
    (db.after (.usersInsert user)).users = db.users ++ [user] := by
  rw [result, sem, Sql.exec] at h
  split_ifs at h with hclash
  rw [users, after, sem, Sql.exec, if_neg hclash]
  exact Store.set_same db .users _

theorem after_sessionsInsert {session : Session} {u : Unit}
    (h : db.result (.sessionsInsert session) = .ok u) :
    (db.after (.sessionsInsert session)).sessions = db.sessions ++ [session] := by
  rw [result, sem, Sql.exec] at h
  split_ifs at h with hclash
  rw [sessions, after, sem, Sql.exec, if_neg hclash]
  exact Store.set_same db .sessions _

@[simp] theorem after_sessionsRevokeByHash (hash : String) (now : Instant) :
    (db.after (.sessionsRevokeByHash hash now)).sessions = db.sessions.map fun s =>
      if s.sessionTokenHash = hash ∧ s.revokedAt = none then { s with revokedAt := some now } else s := by
  simp [after, sem, Sql.exec]

end Db

/-! ### Clients -/

namespace Db

variable (db : Db)

@[simp] theorem after_clientsUpdateDetails (id : Uuid) (name : String)
    (redirectUris allowedScopes : List String) (now : Instant) :
    (db.after (.clientsUpdateDetails id name redirectUris allowedScopes now)).clients =
      db.clients.map fun c =>
        if c.id = id then { c with name, redirectUris, allowedScopes, updatedAt := now } else c := by
  simp [after, sem, Sql.exec]

@[simp] theorem after_clientsUpdateSecretHash (id : Uuid) (secretHash : String) (now : Instant) :
    (db.after (.clientsUpdateSecretHash id secretHash now)).clients = db.clients.map fun c =>
      if c.id = id then { c with clientSecretHash := some secretHash, updatedAt := now } else c := by
  simp [after, sem, Sql.exec]

/-- An `INSERT` adds a row, or nothing. -/
theorem after_clientsInsert (client : OAuthClient) :
    (db.after (.clientsInsert client)).clients = db.clients ∨
      (db.after (.clientsInsert client)).clients = db.clients ++ [client] := by
  rw [after, sem, Sql.exec]
  split_ifs
  · exact .inl rfl
  · exact .inr (Store.set_same db .clients _)

/-- A `DELETE` that is refused changes nothing. -/
theorem after_clientsDelete (id : Uuid) :
    db.after (.clientsDelete id) = db ∨ deleteClient id db = some (db.after (.clientsDelete id)) := by
  rw [after, sem, Sql.exec]
  cases deleteClient id db with
  | none => exact .inl rfl
  | some db' => exact .inr rfl

end Db

/-! ### Consents -/

namespace Db

variable (db : Db)

/-- What an approval does to a consent. -/
def approve (userId clientId : Uuid) (scopes : List String) (now : Instant) (r : OAuthConsent) :
    OAuthConsent :=
  if r.userId = userId ∧ r.clientId = clientId then
    { r with scopes, updatedAt := now, revokedAt := none }
  else r

/-- An upsert replaces the consent of the pair, or adds one. -/
theorem after_consentsUpsert {id userId clientId : Uuid} {scopes : List String} {now : Instant}
    {u : Unit} (h : db.result (.consentsUpsert id userId clientId scopes now) = .ok u) :
    ((∃ r ∈ db.consents, r.userId = userId ∧ r.clientId = clientId) ∧
      (db.after (.consentsUpsert id userId clientId scopes now)).consents =
        db.consents.map (approve userId clientId scopes now)) ∨
    ((∀ r ∈ db.consents, ¬(r.userId = userId ∧ r.clientId = clientId)) ∧
      (db.after (.consentsUpsert id userId clientId scopes now)).consents =
        db.consents ++ [⟨id, userId, clientId, scopes, now, now, none⟩]) := by
  rw [result, sem, Sql.exec] at h
  rw [consents, after, sem, Sql.exec]
  split_ifs at h ⊢ with hhit hclash
  · refine .inl ⟨by simpa using hhit, (Store.set_same db .consents _).trans ?_⟩
    exact List.map_congr_left fun r _ => by simp [approve]
  · exact .inr ⟨by simpa using hhit, Store.set_same db .consents _⟩

theorem result_consentsUpsert_error {id userId clientId : Uuid} {scopes : List String}
    {now : Instant} {e : SqlError}
    (h : db.result (.consentsUpsert id userId clientId scopes now) = .error e) :
    ∃ r ∈ db.consents, r.id = id := by
  rw [result, sem, Sql.exec] at h
  split_ifs at h with hhit hclash
  obtain ⟨r, hr, hc⟩ := List.any_eq_true.1 hclash
  refine ⟨r, hr, ?_⟩
  simp only [clash, decide_eq_true_eq] at hc
  rcases hc with hc | hc
  · exact hc.symm
  · exact absurd (List.any_eq_true.2 ⟨r, hr, by simp [hc]⟩) hhit

end Db

/-! ### Refresh tokens -/

/-- What revoking the tokens with `p` does to a token. -/
def RefreshToken.revokeIf (p : RefreshToken → Bool) (now : Instant) (t : RefreshToken) :
    RefreshToken :=
  if p t ∧ t.revokedAt = none then { t with revokedAt := some now } else t

/-- The family of `t` has a row that was born from the code. -/
def Db.bornFrom (db : Db) (codeId : Uuid) (t : RefreshToken) : Bool :=
  db.refreshTokens.any fun b => b.authorizationCodeId = some codeId ∧ b.familyId = t.familyId

/-- What pointing the token `id` at its successor does to a token. -/
def RefreshToken.rotate (id rotatedToId : Uuid) (t : RefreshToken) : RefreshToken :=
  if t.id = id then { t with rotatedToId := some rotatedToId } else t

namespace Db

variable (db : Db)

@[simp] theorem after_tokensRevokeFamily (familyId : Uuid) (now : Instant) :
    (db.after (.tokensRevokeFamily familyId now)).refreshTokens =
      db.refreshTokens.map (·.revokeIf (fun t => t.familyId = familyId) now) := by
  simp [after, sem, Sql.exec, RefreshToken.revokeIf]

@[simp] theorem after_tokensRevokeByAuthorizationCode (codeId : Uuid) (now : Instant) :
    (db.after (.tokensRevokeByAuthorizationCode codeId now)).refreshTokens =
      db.refreshTokens.map (·.revokeIf (db.bornFrom codeId) now) := by
  simp [after, sem, Sql.exec, RefreshToken.revokeIf, bornFrom]

@[simp] theorem after_tokensMarkRotated (id rotatedToId : Uuid) :
    (db.after (.tokensMarkRotated id rotatedToId)).refreshTokens =
      db.refreshTokens.map (·.rotate id rotatedToId) := by
  simp [after, sem, Sql.exec, RefreshToken.rotate]

theorem after_tokensInsert {t : RefreshToken} {u : Unit} (h : db.result (.tokensInsert t) = .ok u) :
    (db.after (.tokensInsert t)).refreshTokens = db.refreshTokens ++ [t] := by
  rw [result, sem, Sql.exec] at h
  split_ifs at h with hclash
  rw [refreshTokens, after, sem, Sql.exec, if_neg hclash]
  exact Store.set_same db .refreshTokens _

/-- An `INSERT` fails because a row is in the way. -/
theorem result_tokensInsert_error {t : RefreshToken} {e : SqlError}
    (h : db.result (.tokensInsert t) = .error e) :
    ∃ t' ∈ db.refreshTokens, t.id = t'.id ∨ t.tokenHash = t'.tokenHash := by
  rw [result, sem, Sql.exec] at h
  split_ifs at h with hclash
  obtain ⟨t', ht', hc⟩ := List.any_eq_true.1 hclash
  exact ⟨t', ht', by simpa [clash] using hc⟩

end Db

end SharpOauth
