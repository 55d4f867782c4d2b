import SharpOauth.AuthorizationSafety
import SharpOauth.Cookies
import SharpOauth.RedemptionRaces

/-! # Approvals at the same time

An approval reads the active consent of the user for the client, and writes back its union with the
scopes that were approved: two statements, with no transaction around them.  So two approvals at the
same time can lose one of them, and nothing worse than that (`consent_races`): an approval is only
lost to another one for the same user and client that had read the consent before it was written;
a consent holds nothing that was not approved for it, and neither does a code that can be redeemed.

The requests may be of any kind, but the machine has no step for `DELETE`: the deletion of an
application, which takes its consents with it, never gets that far.

Each request that writes a consent or issues a code shows in the record what it has read
(`Saw`), which is what the contract guarantees (`ConsentVersion`). -/

namespace SharpOauth

open Authorization

variable {ι : Type}

/-! ### What the requests have seen -/

/-- The statement of the thread has seen committed tables with this property. -/
def Saw (db : Db) (i : ι) (trace : List (Entry ι Sharp)) (q : Stmt) (P : Db → Prop) : Prop :=
  ∃ later earlier, trace = later ++ .snapshot i q (replay db earlier) :: earlier ∧ P (replay db earlier)

theorem Saw.mono {db : Db} {i : ι} {trace trace' : List (Entry ι Sharp)} {q : Stmt} {P : Db → Prop}
    (h : Saw db i trace q P) (hlater : trace <:+ trace') : Saw db i trace' q P := by
  obtain ⟨later, earlier, rfl, hP⟩ := h
  obtain ⟨later', rfl⟩ := hlater
  exact ⟨later' ++ later, earlier, by simp, hP⟩

/-- The committed tables had this property at some time. -/
def Held (db : Db) (trace : List (Entry ι Sharp)) (P : Db → Prop) : Prop :=
  ∃ earlier, earlier <:+ trace ∧ P (replay db earlier)

theorem Held.mono {db : Db} {trace trace' : List (Entry ι Sharp)} {P : Db → Prop}
    (h : Held db trace P) (hlater : trace <:+ trace') : Held db trace' P := by
  obtain ⟨earlier, hsuffix, hP⟩ := h
  exact ⟨earlier, hsuffix.trans hlater, hP⟩

/-- The thread has committed a consent of the user for the client. -/
def Upserted (i : ι) (userId clientId : Uuid) (trace : List (Entry ι Sharp)) : Prop :=
  ∃ before log, Entry.commit i before log ∈ trace ∧
    ∃ r : OAuthConsent, ⟨Table.consents, r⟩ ∈ log ∧ r.userId = userId ∧ r.clientId = clientId

theorem Upserted.mono {i : ι} {userId clientId : Uuid} {trace trace' : List (Entry ι Sharp)}
    (h : Upserted i userId clientId trace) (hlater : trace <:+ trace') :
    Upserted i userId clientId trace' := by
  obtain ⟨before, log, hmem, hconsent⟩ := h
  exact ⟨before, log, hlater.subset hmem, hconsent⟩

theorem Saw.held {db : Db} {i : ι} {trace : List (Entry ι Sharp)} {q : Stmt} {P : Db → Prop}
    (h : Saw db i trace q P) : Held db trace P := by
  obtain ⟨later, earlier, rfl, hP⟩ := h
  exact ⟨earlier, (List.suffix_cons _ _).trans (List.suffix_append _ _), hP⟩

/-- The scope is part of the active consent. -/
def InConsent (userId clientId : Uuid) (scope : String) (db : Db) : Prop :=
  ∃ r ∈ db.consents, r.userId = userId ∧ r.clientId = clientId ∧ r.revokedAt = none ∧ scope ∈ r.scopes

/-- The browser has a session of the user. -/
def SawSession (st : AppState) (d : Draws) (db : Db) (i : ι) (trace : List (Entry ι Sharp))
    (headers : HeaderMap) (userId : Uuid) : Prop :=
  ∃ token, CookieManager.get headers Session.sessionCookie = some token ∧
    Saw db i trace (.sessionsFindActiveByHash (st.hashToken token) d.now) fun s =>
      ∃ session ∈ s.sessions, session.sessionTokenHash = st.hashToken token ∧
        session.revokedAt = none ∧ d.now < session.expiresAt ∧ session.userId = userId

/-- The request approves these scopes for the user and the client. -/
inductive ApprovesScopes (st : AppState) (d : Draws) (db : Db) (i : ι) (trace : List (Entry ι Sharp)) :
    Request → Uuid → Uuid → ScopeSet → Prop where
  | consent (headers : HeaderMap) (pairs : List (String × String)) (params : Params)
      (hparams : Params.fromPairs pairs = .ok params)
      (hcsrf : Csrf.verify headers (params.get Csrf.csrfField) = true)
      (hdecision : params.get "decision" = some "approve") (userId : Uuid)
      (hsession : SawSession st d db i trace headers userId) (v : ValidatedRequest)
      (hvalidated : ∃ q, Saw db i trace q fun s => Validated s (.fromParams params) v) :
      ApprovesScopes st d db i trace (.consent headers pairs) userId v.client.id v.scope

theorem SawSession.mono {st : AppState} {d : Draws} {db : Db} {i : ι}
    {trace trace' : List (Entry ι Sharp)} {headers : HeaderMap} {userId : Uuid}
    (h : SawSession st d db i trace headers userId) (hlater : trace <:+ trace') :
    SawSession st d db i trace' headers userId := by
  obtain ⟨token, htoken, hsaw⟩ := h
  exact ⟨token, htoken, hsaw.mono hlater⟩

theorem ApprovesScopes.mono {st : AppState} {d : Draws} {db : Db} {i : ι}
    {trace trace' : List (Entry ι Sharp)} {req : Request} {userId clientId : Uuid} {scope : ScopeSet}
    (h : ApprovesScopes st d db i trace req userId clientId scope) (hlater : trace <:+ trace') :
    ApprovesScopes st d db i trace' req userId clientId scope := by
  cases h with
  | consent headers pairs params hparams hcsrf hdecision userId hsession v hvalidated =>
      obtain ⟨q, hsaw⟩ := hvalidated
      exact .consent headers pairs params hparams hcsrf hdecision userId (hsession.mono hlater) v
        ⟨q, hsaw.mono hlater⟩

/-! ### What the programs may write -/

/-- What programs approve and issue, going by what is on record. -/
structure Warrants (ι : Type) where
  /-- The program approves these scopes for the user and the client. -/
  approves : ι → List (Entry ι Sharp) → Uuid → Uuid → ScopeSet → Prop
  /-- The program issues the code. -/
  issues : ι → List (Entry ι Sharp) → AuthorizationCode → Prop
  /-- The programs write to this table, too. -/
  others : Table → Prop
  mono : ∀ {i trace trace' userId clientId scope}, trace <:+ trace' →
    approves i trace userId clientId scope → approves i trace' userId clientId scope

section versions

variable (W : Warrants ι) (db : Db) (i : ι) (trace : List (Entry ι Sharp))

/-- The consent holds what the program had read, and what it approves. -/
structure Approving (r : OAuthConsent) : Prop where
  unrevoked : r.revokedAt = none
  union : ∃ scope, W.approves i trace r.userId r.clientId scope ∧
    Saw db i trace (.consentsFindActive r.userId r.clientId) fun s =>
      ∀ x, x ∈ r.scopes ↔ InConsent r.userId r.clientId x s ∨ x ∈ scope

/-- The versions that a program may write. -/
inductive ConsentVersion : Version Sharp → Prop where
  | consent (r : OAuthConsent) (h : Approving W db i trace r)
      (hpair : ∀ r' ∈ replay db trace .consents, OAuthConsent.id r' = r.id →
        OAuthConsent.userId r' = r.userId ∧ OAuthConsent.clientId r' = r.clientId) :
      ConsentVersion ⟨Table.consents, r⟩
  | code (c : AuthorizationCode) (h : W.issues i trace c) : ConsentVersion ⟨Table.codes, c⟩
  | used (c : AuthorizationCode) (h : c.usedAt ≠ none) : ConsentVersion ⟨Table.codes, c⟩
  | other (v : Version Sharp) (hcodes : v.table ≠ .codes) (hconsents : v.table ≠ .consents)
      (hothers : W.others v.table) : ConsentVersion v

end versions

/-- The code is for a signed-in user, and for scopes that were in the active consent. -/
structure Issuing (st : AppState) (d : Draws) (db : Db) (i : ι) (trace : List (Entry ι Sharp))
    (req : Request) (c : AuthorizationCode) : Prop where
  session : ∃ headers, req.headers? = some headers ∧ SawSession st d db i trace headers c.userId
  scopes : ∃ scope : ScopeSet, c.scope = scope.toString ∧
    Held db trace fun s => ∀ x ∈ scope, InConsent c.userId c.clientId x s

/-- What requests approve and issue. -/
def requests (st : AppState) (db : Db) (d : ι → Draws) (req : ι → Request) : Warrants ι where
  approves i trace := ApprovesScopes st (d i) db i trace (req i)
  issues i trace := Issuing st (d i) db i trace (req i)
  others _ := True
  mono hlater h := h.mono hlater

/-- The record goes on, and is complete. -/
structure Continues (db : Db) (w w' : World ι Sharp) : Prop where
  trace : w.trace <:+ w'.trace
  replay : w.db = replay db w.trace → w'.db = replay db w'.trace

theorem Continues.refl (db : Db) (w : World ι Sharp) : Continues db w w := ⟨List.suffix_rfl, id⟩

theorem Continues.trans {db : Db} {w w' w'' : World ι Sharp} (h : Continues db w w')
    (h' : Continues db w' w'') : Continues db w w'' :=
  ⟨h.trace.trans h'.trace, h'.replay ∘ h.replay⟩

theorem Continues.note (db : Db) (w : World ι Sharp) (i : ι) (q : Stmt) (s : Db) :
    Continues db w (w.note i q s) := ⟨List.suffix_cons _ _, id⟩

theorem Continues.commit (db : Db) (w : World ι Sharp) (i : ι) (log : List (Version Sharp)) :
    Continues db w (w.commit i log) :=
  ⟨List.suffix_cons _ _, fun h => congrArg (install log) h⟩

/-- The contract of the programs. -/
def consentContract (W : Warrants ι) (db : Db) : Contract ι Sharp where
  rely _ := Continues db
  guar i w log := ∀ v ∈ log, ConsentVersion W db i w.trace v
  refl _ := .refl db
  trans _ _ _ _ := .trans
  note _ j _ w q s := .note db w j q s
  commit _ j _ w log _ _ := .commit db w j log

/-! ### Reading -/

section programs

variable {W : Warrants ι} {st : AppState} {db : Db} {d : Draws} {i : ι} {w : World ι Sharp}
  {ε β : Type} [Into SqlError ε] {Q : Except ε β → Tx Sharp → World ι Sharp → Prop}

/-- A lookup outside of a transaction. -/
theorem read_safe (hQ : Contract.Tolerates Q) (hw : w.db = replay db w.trace) {q : Stmt}
    {g : Db → Ret q} (hq : sem q = .select g) {f : Ret q → Service ε β}
    (h : ∀ w' s, Continues db w w' → w'.db = replay db w'.trace → Saw db i w'.trace q (· = s) →
      Sharp.Distinct s → (consentContract W db).Safe i Q (f (g s)) {} w') :
    (consentContract W db).Safe i Q (Prog.bind (query q) f) {} w := by
  refine Contract.safe_query hQ fun w₁ henv => .select hq ?_
  have hw₁ : w₁.db = replay db w₁.trace := Continues.replay henv.rely hw
  refine h (w₁.note i q w₁.db) w₁.db (henv.rely.trans (.note db w₁ i q w₁.db)) hw₁ ?_ henv.distinct
  exact ⟨[], w₁.trace, by rw [← hw₁]; rfl, hw₁.symm⟩

theorem currentSession_safe {headers : HeaderMap} {Q : Except AppError β → Tx Sharp → World ι Sharp → Prop}
    (hQ : Contract.Tolerates Q) (hw : w.db = replay db w.trace)
    {f : Option (Session × User) → Service AppError β}
    (h : ∀ signedIn w', Continues db w w' → w'.db = replay db w'.trace →
      (∀ s ∈ signedIn, SawSession st d db i w'.trace headers s.2.id) →
      (consentContract W db).Safe i Q (f signedIn) {} w') :
    (consentContract W db).Safe i Q
      (Prog.bind (currentSession st.toCrates d headers) f) {} w := by
  unfold currentSession
  cases hcookie : CookieManager.get headers Session.sessionCookie with
  | none => exact h none w (.refl db w) hw (by simp)
  | some token =>
      rw [Contract.safe_bind]
      have hQ' : Contract.Tolerates ((consentContract W db).Next i Q f) := hQ
      refine read_safe (q := .sessionsFindActiveByHash _ _) hQ' hw rfl fun w₁ s hlater₁ hw₁ hsaw _ => ?_
      cases hfind : s.sessions.find? (fun r => r.sessionTokenHash = st.hashToken token ∧
          r.revokedAt = none ∧ d.now < r.expiresAt) with
      | none => exact h none w₁ hlater₁ hw₁ (by simp)
      | some session =>
          refine read_safe (q := .usersFindById _) hQ' hw₁ rfl fun w₂ s' hlater₂ hw₂ _ _ => ?_
          cases huser : s'.users.find? (fun u => u.id = session.userId) with
          | none => exact h none w₂ (hlater₁.trans hlater₂) hw₂ (by simp)
          | some user =>
              refine h (some (session, user)) w₂ (hlater₁.trans hlater₂) hw₂ fun p hp => ?_
              obtain rfl := Option.mem_some_iff.1 hp
              obtain ⟨later, earlier, htrace, rfl⟩ := hsaw.mono hlater₂.trace
              have hfound := List.find?_some hfind
              have hid := List.find?_some huser
              simp only [decide_eq_true_eq] at hfound hid
              exact ⟨token, hcookie, later, earlier, htrace, session, List.mem_of_find?_eq_some hfind,
                hfound.1, hfound.2.1, hfound.2.2, hid.symm⟩

theorem validate_safe {r : AuthorizationRequest}
    {Q : Except AuthorizationError β → Tx Sharp → World ι Sharp → Prop} (hQ : ∀ e tx w, Q (.error e) tx w)
    (hw : w.db = replay db w.trace) {f : ValidatedRequest → Service AuthorizationError β}
    (h : ∀ v w', Continues db w w' → w'.db = replay db w'.trace →
      (∃ q, Saw db i w'.trace q fun s => Validated s r v) →
      (consentContract W db).Safe i Q (f v) {} w') :
    (consentContract W db).Safe i Q (Prog.bind (validate r) f) {} w := by
  rw [Contract.safe_bind]
  have hQ' : Contract.Tolerates ((consentContract W db).Next i Q f) := fun e => hQ _
  refine Contract.safe_okOr (fun _ => hQ _ _ _) fun clientId hclientId => ?_
  refine read_safe (q := .clientsFindByClientId _) hQ' hw rfl fun w₁ s hlater₁ hw₁ hsaw _ => ?_
  refine Contract.safe_okOr (fun _ => hQ _ _ _) fun client hclient => ?_
  refine Contract.safe_okOr (fun _ => hQ _ _ _) fun uri huri => ?_
  obtain ⟨hfind, hactive⟩ := Option.filter_eq_some_iff.1 hclient
  split_ifs with hregistered
  · exact hQ _ _ _
  · have hlast : (Prog.ofExcept (checkRequest client uri r) : Service AuthorizationError _) =
        Prog.bind (Prog.ofExcept (checkRequest client uri r)) Prog.ret := (Prog.bind_ret _).symm
    rw [hlast]
    refine Contract.safe_ofExcept (fun e _ => hQ _ _ _) fun v hv => ?_
    obtain ⟨rfl, rfl, -⟩ := checkRequest_ok hv
    refine h v w₁ hlater₁ hw₁ ⟨.clientsFindByClientId clientId, ?_⟩
    obtain ⟨later, earlier, htrace, rfl⟩ := hsaw
    refine ⟨later, earlier, htrace, ⟨⟨clientId, hclientId, hfind⟩, hactive, huri, ?_⟩, hv⟩
    simpa [OAuthClient.hasRedirectUri] using hregistered

/-! ### Approving -/

/-- What the lookup of the active consent finds. -/
theorem inConsent_iff {s : Db} (hs : Sharp.Distinct s) {userId clientId : Uuid} {x : String} :
    InConsent userId clientId x s ↔ ∃ granted, s.activeScopes userId clientId = some granted ∧ x ∈ granted := by
  unfold Db.activeScopes
  constructor
  · rintro ⟨r, hr, huser, hclient, hrevoked, hx⟩
    refine ⟨.ofList r.scopes, Option.map_eq_some_iff.2 ⟨r.scopes, Option.map_eq_some_iff.2 ⟨r, ?_, rfl⟩, rfl⟩,
      ScopeSet.mem_ofList.2 hx⟩
    refine find_only hr (by simp [huser, hclient, hrevoked]) fun r' hr' hfound => ?_
    simp only [decide_eq_true_eq] at hfound
    exact hs.rows .consents r' r hr' hr (by simp [clash, huser, hclient, hfound])
  · rintro ⟨granted, hgranted, hx⟩
    obtain ⟨scopes, hscopes, rfl⟩ := Option.map_eq_some_iff.1 hgranted
    obtain ⟨r, hfind, rfl⟩ := Option.map_eq_some_iff.1 hscopes
    have hfound := List.find?_some hfind
    simp only [decide_eq_true_eq] at hfound
    exact ⟨r, List.mem_of_find?_eq_some hfind, hfound.1, hfound.2.1, hfound.2.2, ScopeSet.mem_ofList.1 hx⟩

theorem grantedScopes_safe {userId clientId : Uuid}
    {P : Except AppError (Option ScopeSet) → Tx Sharp → World ι Sharp → Prop} (hP : Contract.Tolerates P)
    (hw : w.db = replay db w.trace)
    (h : ∀ granted w', Continues db w w' → w'.db = replay db w'.trace →
      (Saw db i w'.trace (.consentsFindActive userId clientId) fun s =>
        ∀ x, InConsent userId clientId x s ↔ ∃ g, granted = some g ∧ x ∈ g) → P (.ok granted) {} w') :
    (consentContract W db).Safe i P (grantedScopes userId clientId) {} w := by
  refine read_safe (q := .consentsFindActive userId clientId) hP hw rfl fun w₁ s hlater₁ hw₁ hsaw hs => ?_
  refine h (s.activeScopes userId clientId) w₁ hlater₁ hw₁ ?_
  obtain ⟨later, earlier, htrace, rfl⟩ := hsaw
  exact ⟨later, earlier, htrace, fun x => inConsent_iff hs⟩

/-- A committed consent. -/
theorem inConsent_commit {w : World ι Sharp} {i : ι} {r : OAuthConsent} {x : String}
    (hrevoked : r.revokedAt = none) (hx : x ∈ r.scopes) :
    InConsent r.userId r.clientId x (w.commit i [⟨Table.consents, r⟩]).db :=
  ⟨r, (mem_put_iff (S := Sharp) (t := .consents)).2 (.inl rfl), rfl, rfl, hrevoked, hx⟩

/-- The union of what was read and what is approved is stored. -/
theorem upsert_safe {userId clientId id : Uuid} {scope all : ScopeSet} {now : Instant}
    {P : Except AppError Unit → Tx Sharp → World ι Sharp → Prop} (hP : Contract.Tolerates P)
    (hw : w.db = replay db w.trace)
    (happroves : W.approves i w.trace userId clientId scope)
    (hall : Saw db i w.trace (.consentsFindActive userId clientId) fun s =>
      ∀ x, x ∈ all ↔ InConsent userId clientId x s ∨ x ∈ scope)
    (h : ∀ w', Continues db w w' → w'.db = replay db w'.trace → Upserted i userId clientId w'.trace →
      (Held db w'.trace fun s => ∀ x ∈ scope, InConsent userId clientId x s) → P (.ok ()) {} w') :
    (consentContract W db).Safe i P
      (query (.consentsUpsert id userId clientId all.toList now)) {} w := by
  have hseq : (query (.consentsUpsert id userId clientId all.toList now) : Service AppError Unit) =
      Prog.bind (query (.consentsUpsert id userId clientId all.toList now)) Prog.ret :=
    (Prog.bind_ret _).symm
  rw [hseq]
  refine Contract.safe_query hP fun w₁ henv => ?_
  have hw₁ : w₁.db = replay db w₁.trace := Continues.replay henv.rely hw
  set w₂ := w₁.note i (.consentsUpsert id userId clientId all.toList now) w₁.db with hw₂
  have hlater : Continues db w w₂ := henv.rely.trans (.note db w₁ i _ _)
  have hstored (r : OAuthConsent) (huser : r.userId = userId) (hclient : r.clientId = clientId)
      (hrevoked : r.revokedAt = none) (hscopes : r.scopes = all.toList)
      (hpair : ∀ r' ∈ w₁.db .consents, OAuthConsent.id r' = r.id →
        OAuthConsent.userId r' = r.userId ∧ OAuthConsent.clientId r' = r.clientId) :
      (consentContract W db).Answers i (Tx.write {} ⟨Table.consents, r⟩) w₂
        (Contract.Resumes (consentContract W db) i P
          (q := .consentsUpsert id userId clientId all.toList now) Prog.ret (.ok ())) := by
    subst huser hclient
    refine .auto rfl ⟨fun v hv => ?_, ?_⟩
    · obtain rfl := List.mem_singleton.1 hv
      refine .consent r ⟨hrevoked, scope, W.mono hlater.trace happroves, ?_⟩ fun r' hr' => hpair r' ?_
      · simpa [hscopes] using hall.mono hlater.trace
      · rw [hw₁]
        exact hr'
    · have hw₃ : (w₂.commit i [⟨Table.consents, r⟩]).db =
          replay db (w₂.commit i [⟨Table.consents, r⟩]).trace := congrArg (install _) hw₁
      refine h _ (hlater.trans (.commit db w₂ i _)) hw₃
        ⟨_, _, List.mem_cons_self, r, List.mem_singleton_self _, rfl, rfl⟩ ⟨_, List.suffix_rfl, fun x hx => ?_⟩
      obtain ⟨_, _, _, hunion⟩ := hall
      show InConsent r.userId r.clientId x (replay db (w₂.commit i [⟨Table.consents, r⟩]).trace)
      rw [← hw₃]
      exact inConsent_commit hrevoked (hscopes ▸ (hunion x).2 (.inr hx))
  refine .upsert rfl (hP _ _ _) (fun _ hclash => ?_) fun x hx hhit => ?_
  · refine hstored _ rfl rfl rfl rfl fun r' hr' hid => ?_
    have hne := hclash r' hr'
    simp [clash, hid] at hne
  · simp only [decide_eq_true_eq] at hhit
    refine hstored _ hhit.1 hhit.2 rfl rfl fun r' hr' hid => ?_
    rw [Locking.eq_of_key (henv.distinct.keys .consents) hr' hx (congrArg Sum.inl hid)]
    exact ⟨rfl, rfl⟩

theorem grant_safe {userId clientId : Uuid} {scope : ScopeSet}
    {P : Except AppError Unit → Tx Sharp → World ι Sharp → Prop} (hP : Contract.Tolerates P)
    (hw : w.db = replay db w.trace)
    (happroves : W.approves i w.trace userId clientId scope)
    (h : ∀ w', Continues db w w' → w'.db = replay db w'.trace → Upserted i userId clientId w'.trace →
      (Held db w'.trace fun s => ∀ x ∈ scope, InConsent userId clientId x s) → P (.ok ()) {} w') :
    (consentContract W db).Safe i P (grant d userId clientId scope) {} w := by
  unfold grant
  rw [Prog.bind_eq, Contract.safe_bind]
  refine grantedScopes_safe hP hw fun granted w₁ hlater₁ hw₁ hsaw => ?_
  refine upsert_safe hP hw₁ (W.mono hlater₁.trace happroves) ?_ fun w₂ hlater₂ hw₂ hupserted hheld =>
    h w₂ (hlater₁.trans hlater₂) hw₂ hupserted hheld
  obtain ⟨later, earlier, htrace, hgranted⟩ := hsaw
  refine ⟨later, earlier, htrace, fun x => ?_⟩
  rw [hgranted]
  cases granted with
  | none => simp
  | some granted => simp

/-! ### Issuing codes -/

theorem issueCode_safe {v : ValidatedRequest} {user : User} {session : Session}
    {P : Except AppError String → Tx Sharp → World ι Sharp → Prop} (hP : Contract.Tolerates P)
    (hissues : ∀ w', Continues db w w' → W.issues i w'.trace (newCode st.toCrates d v user session))
    (hlast : ∀ r w', Continues db w w' → P r {} w') :
    (consentContract W db).Safe i P (issueCode st d v user session) {} w := by
  refine Contract.safe_query hP fun w₁ henv => ?_
  set c := newCode st.toCrates d v user session with hc
  have hlater : Continues db w (w₁.note i (.codesInsert c) w₁.db) :=
    henv.rely.trans (.note db w₁ i _ _)
  have hredirect (w' : World ι Sharp) (hlater : Continues db w w') : (consentContract W db).Safe i P
      (Prog.ofExcept (redirectWithParams st.toCrates v.redirectUri
        [("code", generateToken (d.secret 0)), ("state", v.state), ("iss", st.issuer)])) {} w' := by
    unfold redirectWithParams
    cases st.parseUrl v.redirectUri with
    | none => exact hlast _ w' hlater
    | some url => exact hlast _ w' hlater
  refine .insert rfl (hP _ _ _) fun _ => .auto rfl ⟨fun u hu => ?_, hredirect _ ?_⟩
  · obtain rfl := List.mem_singleton.1 hu
    exact .code c (hissues _ hlater)
  · exact hlater.trans (.commit db _ i _)

/-- The answer to the consent page: an approval is recorded before its code is issued. -/
theorem completeConsent_safe {r : AuthorizationRequest} {session : Session} {user : User} {approved : Bool}
    {P : Except AuthorizationError String → Tx Sharp → World ι Sharp → Prop}
    (hP : ∀ e tx w, P (.error e) tx w) (hw : w.db = replay db w.trace)
    (happroves : approved = true → ∀ v w', Continues db w w' →
      (∃ q, Saw db i w'.trace q fun s => Validated s r v) →
        W.approves i w'.trace user.id v.client.id v.scope)
    (hissues : ∀ v w', Continues db w w' →
      (Held db w'.trace fun s => ∀ x ∈ v.scope, InConsent user.id v.client.id x s) →
        W.issues i w'.trace (newCode st.toCrates d v user session))
    (hok : ∀ url v w', (∃ q, Saw db i w'.trace q fun s => Validated s r v) →
      Upserted i user.id v.client.id w'.trace → P (.ok url) {} w') :
    (consentContract W db).Safe i P (completeConsent st d r approved session user) {} w := by
  refine validate_safe hP hw fun v w₁ hlater₁ hw₁ hvalidated => ?_
  split_ifs with hdenied
  · exact hP _ _ _
  · rw [Prog.bind_eq, Contract.safe_bind, Contract.safe_lift]
    refine grant_safe (fun _ _ _ => hP _ _ _) hw₁ (happroves (by simpa using hdenied) v w₁ hlater₁ hvalidated)
      fun w₂ hlater₂ hw₂ hupserted hheld => ?_
    show (consentContract W db).Safe i P (Prog.lift (issueCode st d v user session)) {} w₂
    rw [Contract.safe_lift]
    have hlater := hlater₁.trans hlater₂
    refine issueCode_safe (fun _ _ _ => hP _ _ _)
      (fun w₃ hlater₃ => hissues v w₃ (hlater.trans hlater₃) (hheld.mono hlater₃.trace)) fun r w₃ hlater₃ => ?_
    cases r with
    | error e => exact hP _ _ _
    | ok url =>
        obtain ⟨q, hsaw⟩ := hvalidated
        exact hok url v w₃ ⟨q, hsaw.mono (hlater₂.trans hlater₃).trace⟩ (hupserted.mono hlater₃.trace)

end programs

/-! ### Every request -/

/-- Versions that are neither of a consent nor of a code that can be redeemed. -/
inductive Unconcerned (db : Db) : Version Sharp → Prop where
  | used (c : AuthorizationCode) (h : c.usedAt ≠ none) : Unconcerned db ⟨Table.codes, c⟩
  | other (v : Version Sharp) (hcodes : v.table ≠ .codes) (hconsents : v.table ≠ .consents) :
      Unconcerned db v

section requests

variable {st : AppState} {db : Db} {d : ι → Draws} {req : ι → Request} {i : ι} {w : World ι Sharp}
  {ε β : Type} [Into SqlError ε] {Q : Except ε β → Tx Sharp → World ι Sharp → Prop}

theorem permits_unconcerned : (consentContract (requests st db d req) db).Permits i Unconcerned := by
  refine ⟨fun w log h v hv => ?_, fun db db' v _ h => ?_⟩
  · cases h v hv with
    | used c hused => exact .used c hused
    | other _ hcodes hconsents => exact .other v hcodes hconsents trivial
  · cases h with
    | used c hused => exact .used c hused
    | other _ hcodes hconsents => exact .other v hcodes hconsents

/-- Statements that write no consents and no codes. -/
theorem writes_unconcerned {q : Stmt} (hcodes : .codes ∉ q.writes) (hconsents : .consents ∉ q.writes) :
    Sharp.Writes Unconcerned q := by
  have hother (v : Version Sharp) (hv : v.table ∈ q.writes) (db : Db) : Unconcerned db v :=
    .other v (fun h => hcodes (h ▸ hv)) fun h => hconsents (h ▸ hv)
  exact ⟨fun s t r out h db _ => hother _ (Stmt.inserts_writes h) db,
    fun _ h db => hother _ (Stmt.changes_writes h) db⟩

theorem Stmt.Exchanging.writes {q : Stmt} (h : q.Exchanging) : Sharp.Writes Unconcerned q := by
  have hconsents : .consents ∉ q.writes := fun hmem => by simpa using h.1 _ hmem
  by_cases hcodes : .codes ∈ q.writes
  · cases q with
    | codesInsert c => exact absurd rfl (h.2 c)
    | codesClaim codeHash now =>
        refine ⟨fun s t r out h => (by cases h), fun v h db => ?_⟩
        cases h
        exact .used _ (by simp)
    | clientsDelete id => exact absurd (by simp [Stmt.writes]) hconsents
    | _ => simp [Stmt.writes] at hcodes
  · exact writes_unconcerned hcodes hconsents

theorem Stmt.Accounting.writes {q : Stmt} (h : q.Accounting) : Sharp.Writes Unconcerned q :=
  writes_unconcerned (fun hmem => by simpa using h _ hmem) fun hmem => by simpa using h _ hmem

theorem Stmt.Registers.writes {d : Draws} {q : Stmt} (h : q.Registers d) :
    Sharp.Writes Unconcerned q := by
  cases h with
  | read q h => exact writes_unconcerned (by simp [h]) (by simp [h])
  | clientsDelete id =>
      exact ⟨fun s t r out h => (by cases h), fun v h => (by cases h)⟩
  | _ => exact writes_unconcerned (by simp [Stmt.writes]) (by simp [Stmt.writes])

/-- Requests that neither approve nor authorize anything. -/
theorem unconcerned_safe {p : Service Empty Response} (h : p.Only (Sharp.Writes Unconcerned)) :
    (consentContract (requests st db d req) db).Safe i (fun _ _ _ => True) p {} w :=
  Contract.safe_of_only sharp_keyed permits_unconcerned h fun _ hv => absurd hv List.not_mem_nil

/-- The error page is no commit. -/
theorem orInternalError_safe {p : Service AppError Response}
    (h : (consentContract (requests st db d req) db).Safe i (fun _ _ _ => True) p {} w) :
    (consentContract (requests st db d req) db).Safe i (fun _ _ _ => True) (orInternalError p) {} w := by
  unfold orInternalError
  rw [Prog.bind_eq, Contract.safe_bind, Contract.safe_attempt]
  refine Contract.safe_mono (fun r tx w _ => ?_) p h
  cases r <;> exact True.intro

theorem decide_safe {r : AuthorizationRequest} {signedIn : Option (Session × User)} {headers : HeaderMap}
    {P : Except AuthorizationError NextStep → Tx Sharp → World ι Sharp → Prop} (hP : ∀ r tx w, P r tx w)
    (hw : w.db = replay db w.trace) (hreq : (req i).headers? = some headers)
    (hsession : ∀ s ∈ signedIn, SawSession st (d i) db i w.trace headers s.2.id) :
    (consentContract (requests st db d req) db).Safe i P (Authorization.decide st (d i) r signedIn) {} w := by
  refine validate_safe (fun _ _ _ => hP _ _ _) hw fun v w₁ hlater₁ hw₁ _ => ?_
  dsimp only
  split
  · split_ifs
    · exact hP _ _ _
    · exact hP _ _ _
  · rename_i session user hfilter
    have hsession := hsession (session, user) (Option.filter_eq_some_iff.1 hfilter).1
    rw [Prog.bind_eq, Contract.safe_bind, Contract.safe_lift]
    refine grantedScopes_safe (fun _ _ _ => hP _ _ _) hw₁ fun granted w₂ hlater₂ hw₂ hsaw => ?_
    show (consentContract (requests st db d req) db).Safe i P _ {} w₂
    beta_reduce
    split_ifs with happroved
    · rw [Prog.bind_eq, Contract.safe_bind, Contract.safe_lift]
      have hheld : Held db w₂.trace fun s => ∀ x ∈ v.scope, InConsent user.id v.client.id x s := by
        obtain ⟨later, earlier, htrace, hgranted⟩ := hsaw
        refine Saw.held ⟨later, earlier, htrace, fun x hx => (hgranted x).2 ?_⟩
        cases granted with
        | none => simp at happroved
        | some g =>
            simp only [Option.any_some, Bool.and_eq_true, ScopeSet.isSubsetOf_iff] at happroved
            exact ⟨g, rfl, happroved.1 x hx⟩
      refine issueCode_safe (fun _ _ _ => hP _ _ _) (fun w₃ hlater₃ => ?_) fun r w₃ _ => ?_
      · have hlater := (hlater₁.trans hlater₂).trans hlater₃
        exact ⟨⟨headers, hreq, hsession.mono hlater.trace⟩, v.scope, rfl, hheld.mono hlater₃.trace⟩
      · cases r <;> exact hP _ _ _
    · exact hP _ _ _
    · exact Contract.safe_query (fun _ _ _ => hP _ _ _) fun w₃ _ => .select rfl (hP _ _ _)

theorem authorize_safe {headers : HeaderMap} {pairs : List (String × String)}
    (hw : w.db = replay db w.trace) (hreq : (req i).headers? = some headers) :
    (consentContract (requests st db d req) db).Safe i (fun _ _ _ => True)
      (authorize st (d i) headers pairs) {} w := by
  refine currentSession_safe (fun _ _ _ => True.intro) hw fun signedIn w₁ hlater hw₁ hsession => ?_
  split
  · exact True.intro
  · rw [Prog.bind_eq, Contract.safe_bind, Contract.safe_attempt]
    refine decide_safe (fun r _ _ => ?_) hw₁ hreq hsession
    cases r with
    | error e => exact True.intro
    | ok next => cases next <;> exact True.intro

theorem consent_safe {headers : HeaderMap} {pairs : List (String × String)}
    (hw : w.db = replay db w.trace) (hreq : req i = .consent headers pairs) :
    (consentContract (requests st db d req) db).Safe i (fun _ _ _ => True) (consent st (d i) headers pairs) {} w := by
  refine currentSession_safe (fun _ _ _ => True.intro) hw fun signedIn w₁ hlater hw₁ hsession => ?_
  split
  · exact True.intro
  · rename_i params hparams
    split_ifs with hcsrf
    · exact True.intro
    · split
      · exact True.intro
      · rename_i session user
        rw [Prog.bind_eq, Contract.safe_bind, Contract.safe_attempt]
        have hsession := hsession (session, user) rfl
        refine completeConsent_safe (fun _ _ _ => True.intro) hw₁ (fun happroved v w₂ hlater₂ hvalidated => ?_)
          (fun v w₂ hlater₂ hheld => ?_) fun _ _ _ _ _ => True.intro
        · show ApprovesScopes st (d i) db i w₂.trace (req i) user.id v.client.id v.scope
          rw [hreq]
          exact .consent headers pairs params hparams (by simpa using hcsrf) (by simpa using happroved) user.id
            (hsession.mono hlater₂.trace) v hvalidated
        · exact ⟨⟨headers, by rw [hreq]; rfl, hsession.mono hlater₂.trace⟩, v.scope, rfl, hheld⟩

/-- **Every request meets the contract.** -/
theorem respond_consents (r : Request) (hr : req i = r) (hw : w.db = replay db w.trace) :
    (consentContract (requests st db d req) db).Safe i (fun _ _ _ => True) (respond st (d i) r) {} w := by
  by_cases hexchanging : r.TokenRequest
  · exact unconcerned_safe (Prog.only_mono (fun _ h => h.writes) (respond_exchanging st (d i) hexchanging))
  have hregisters (h : r.Registers) :
      (consentContract (requests st db d req) db).Safe i (fun _ _ _ => True) (respond st (d i) r) {} w :=
    unconcerned_safe (Prog.only_mono (fun _ h => h.writes) (respond_only st (d i) h))
  have haccounting {p : Service AppError Response} (h : p.Only Stmt.Accounting) :
      (consentContract (requests st db d req) db).Safe i (fun _ _ _ => True) (orInternalError p) {} w :=
    unconcerned_safe (orInternalError_of_only (Prog.only_mono (fun _ h => h.writes) h))
  cases r with
  | authorize headers pairs => exact orInternalError_safe (authorize_safe hw (by rw [hr]; rfl))
  | consent headers pairs => exact orInternalError_safe (consent_safe hw hr)
  | token headers form =>
      cases form with
      | some pairs => exact absurd (.token headers pairs) hexchanging
      | none => exact True.intro
  | revoke headers form =>
      cases form with
      | some pairs => exact absurd (.revoke headers pairs) hexchanging
      | none => exact True.intro
  | signIn headers form => exact haccounting (Pages.signIn_only st (d i) headers form)
  | signUp headers form => exact haccounting (Pages.signUp_only st (d i) headers form)
  | logout headers csrfToken => exact haccounting (Pages.logout_only st (d i) headers csrfToken)
  | _ => exact hregisters (by constructor)

end requests

/-! ### Histories -/

/-- The scope was in the consent at the start, or a request has approved it. -/
def Allowed (st : AppState) (db : Db) (d : ι → Draws) (req : ι → Request)
    (trace : List (Entry ι Sharp)) (userId clientId : Uuid) (scope : String) : Prop :=
  InConsent userId clientId scope db ∨ ∃ j approved,
    ApprovesScopes st (d j) db j trace (req j) userId clientId approved ∧ scope ∈ approved

/-- An approval of other scopes has taken the scope away: it had read the consent when the scope was not
in it, and its commit has replaced the consent. -/
inductive Overwritten (st : AppState) (db : Db) (d : ι → Draws) (req : ι → Request)
    (trace : List (Entry ι Sharp)) (userId clientId : Uuid) (scope : String)
    (mid earlier : List (Entry ι Sharp)) : Prop where
  | intro (j : ι) (approved : ScopeSet)
      (happroves : ApprovesScopes st (d j) db j trace (req j) userId clientId approved)
      (hother : scope ∉ approved) (before : Db) (log : List (Version Sharp))
      (hcommit : .commit j before log ∈ mid) (hrecorded : InConsent userId clientId scope before)
      (hlost : ¬InConsent userId clientId scope (install log before)) (s : Db)
      (hread : .snapshot j (.consentsFindActive userId clientId) s ∈ earlier)
      (hunseen : ¬InConsent userId clientId scope s)

section histories

variable {st : AppState} {db : Db} {d : ι → Draws} {req : ι → Request} {i : ι} {w : World ι Sharp}
  {userId clientId : Uuid} {scope : String} {log : List (Version Sharp)}
  {trace later mid earlier : List (Entry ι Sharp)}

theorem Overwritten.mono (h : Overwritten st db d req trace userId clientId scope mid earlier)
    {trace' mid' : List (Entry ι Sharp)} (hlater : trace <:+ trace') (hsub : mid ⊆ mid') :
    Overwritten st db d req trace' userId clientId scope mid' earlier := by
  cases h with
  | intro j approved happroves hother before log hcommit hrecorded hlost s hread hunseen =>
      exact .intro j approved (happroves.mono hlater) hother before log (hsub hcommit) hrecorded hlost s
        hread hunseen

theorem Allowed.mono {trace' : List (Entry ι Sharp)}
    (h : Allowed st db d req trace userId clientId scope) (hlater : trace <:+ trace') :
    Allowed st db d req trace' userId clientId scope := by
  refine h.imp_right fun ⟨j, approved, happroves, hmem⟩ => ?_
  exact ⟨j, approved, happroves.mono hlater, hmem⟩

/-- A row of the committed consents is a new version, or an old row without one. -/
theorem consent_cases {r : OAuthConsent} (hr : r ∈ install log w.db .consents) :
    (⟨Table.consents, r⟩ : Version Sharp) ∈ log ∨ r ∈ w.db .consents :=
  (mem_install hr).imp_right And.left

/-- A scope of the new consent was in the old one, or in a new version. -/
theorem inConsent_install {W : Warrants ι} (hguar : ∀ v ∈ log, ConsentVersion W db i w.trace v)
    (h : InConsent userId clientId scope (install log w.db)) :
    InConsent userId clientId scope w.db ∨ ∃ r, (⟨Table.consents, r⟩ : Version Sharp) ∈ log ∧
      Approving W db i w.trace r ∧ r.userId = userId ∧ r.clientId = clientId ∧ scope ∈ r.scopes := by
  obtain ⟨r, hr, huser, hclient, hrevoked, hscope⟩ := h
  rcases consent_cases hr with hlog | hr
  · cases hguar _ hlog with
    | consent _ happroving hpair => exact .inr ⟨r, hlog, happroving, huser, hclient, hscope⟩
    | other _ _ hconsents => exact absurd rfl hconsents
  · exact .inl ⟨r, hr, huser, hclient, hrevoked, hscope⟩

/-- A version without the scope is in the way. -/
theorem cleared {W : Warrants ι} (hw : w.db = replay db w.trace)
    (hguar : ∀ v ∈ log, ConsentVersion W db i w.trace v)
    (hrecorded : InConsent userId clientId scope w.db)
    (hnot : ¬InConsent userId clientId scope (install log w.db)) :
    ∃ r, (⟨Table.consents, r⟩ : Version Sharp) ∈ log ∧ Approving W db i w.trace r ∧
      r.userId = userId ∧ r.clientId = clientId ∧ scope ∉ r.scopes := by
  obtain ⟨r₀, hr₀, huser, hclient, hrevoked, hscope⟩ := hrecorded
  by_cases hid : ∃ v ∈ log, v.id = (Table.consents, key .consents r₀)
  · obtain ⟨v, hv, hid⟩ := hid
    obtain ⟨t, r⟩ := v
    obtain rfl : t = .consents := congrArg Prod.fst hid
    obtain ⟨r₁, hr₁, hlog, hkey⟩ := exists_newest (S := Sharp) (s := w.db) hv
    have hid₁ : OAuthConsent.id r₁ = r₀.id := Sum.inl.inj (hkey.trans (congrArg Prod.snd hid))
    cases hguar _ hlog with
    | consent _ happroving hpair =>
        obtain ⟨huser₁, hclient₁⟩ := hpair r₀ (hw ▸ hr₀) hid₁.symm
        refine ⟨r₁, hlog, happroving, huser₁ ▸ huser, hclient₁ ▸ hclient, fun hmem => hnot ?_⟩
        exact ⟨r₁, hr₁, huser₁ ▸ huser, hclient₁ ▸ hclient, happroving.unrevoked, hmem⟩
    | other _ _ hconsents => exact absurd rfl hconsents
  · refine absurd ⟨r₀, ?_, huser, hclient, hrevoked, hscope⟩ hnot
    exact (mem_install_of_ne (S := Sharp) fun v hv h => hid ⟨v, hv, h⟩).2 hr₀

/-- **An approval is lost only to one that overlaps with it.** -/
theorem inConsent_kept (h : (consentContract (requests st db d req) db).History ⟨db, []⟩ w) :
    ∀ later mid earlier, w.trace = later ++ (mid ++ earlier) →
      InConsent userId clientId scope (replay db earlier) →
        InConsent userId clientId scope (replay db (mid ++ earlier)) ∨
          Overwritten st db d req w.trace userId clientId scope mid earlier := by
  induction h with
  | start =>
      intro later mid earlier htrace hrecorded
      obtain ⟨-, htrace⟩ := List.append_eq_nil_iff.1 htrace.symm
      obtain ⟨rfl, rfl⟩ := List.append_eq_nil_iff.1 htrace
      exact .inl hrecorded
  | @note w h j q s ih =>
      intro later mid earlier htrace hrecorded
      cases later with
      | cons e later =>
          exact (ih later mid earlier (List.cons.inj htrace).2 hrecorded).imp_right fun h =>
            h.mono (List.suffix_cons _ _) (List.Subset.refl _)
      | nil =>
          cases mid with
          | nil => exact .inl hrecorded
          | cons e mid =>
              obtain ⟨rfl, hrest⟩ := List.cons.inj htrace
              exact (ih [] mid earlier hrest hrecorded).imp_right fun h =>
                h.mono (List.suffix_cons _ _) (List.subset_cons_self _ _)
  | @commit w h j log hdistinct hguar ih =>
      intro later mid earlier htrace hrecorded
      cases later with
      | cons e later =>
          exact (ih later mid earlier (List.cons.inj htrace).2 hrecorded).imp_right fun h =>
            h.mono (List.suffix_cons _ _) (List.Subset.refl _)
      | nil =>
          cases mid with
          | nil => exact .inl hrecorded
          | cons e mid =>
              obtain ⟨rfl, hrest⟩ := List.cons.inj htrace
              have htrace : w.trace = mid ++ earlier := hrest
              have hw := h.replay_eq
              by_cases hkept : InConsent userId clientId scope (install log w.db)
              · left
                show InConsent userId clientId scope (install log (replay db (mid ++ earlier)))
                rwa [← htrace, ← hw]
              right
              rcases ih [] mid earlier htrace hrecorded with hbefore | hlost
              · rw [← htrace, ← hw] at hbefore
                obtain ⟨r, -, happroving, rfl, rfl, hscope⟩ := cleared hw hguar hbefore hkept
                obtain ⟨approved, happroves, later', read, hread, hunion⟩ := happroving.union
                have hother : scope ∉ approved := fun hmem => hscope ((hunion scope).2 (.inr hmem))
                have hunseen : ¬InConsent r.userId r.clientId scope (replay db read) := fun hseen =>
                  hscope ((hunion scope).2 (.inl hseen))
                have hoverlap (hmem : Entry.snapshot j (Stmt.consentsFindActive r.userId r.clientId)
                    (replay db read) ∈ earlier) :
                    Overwritten st db d req (.commit j w.db log :: w.trace) r.userId r.clientId scope
                      (.commit j w.db log :: mid) earlier :=
                  .intro j approved (happroves.mono (List.suffix_cons _ _)) hother w.db log
                    List.mem_cons_self hbefore hkept _ hmem hunseen
                -- Where the lookup of the approval is in the record.
                rcases List.append_eq_append_iff.1 (htrace.symm.trans hread) with
                  ⟨between, -, hearlier⟩ | ⟨between, hmid, hearlier⟩
                · exact hoverlap (by rw [hearlier]; simp)
                · cases between with
                  | nil => exact hoverlap (by rw [← List.nil_append earlier, ← hearlier]; simp)
                  | cons e between =>
                      obtain ⟨rfl, rfl⟩ := List.cons.inj hearlier
                      have hsplit : w.trace = (later' ++ [.snapshot j
                          (Stmt.consentsFindActive r.userId r.clientId) (replay db (between ++ earlier))]) ++
                            (between ++ earlier) := by
                        rw [hread]
                        simp
                      rcases ih _ between earlier hsplit hrecorded with hseen | hlost
                      · exact absurd hseen hunseen
                      · exact hlost.mono (List.suffix_cons _ _) fun x hx => by simp [hmid, hx]
              · exact hlost.mono (List.suffix_cons _ _) (List.subset_cons_self _ _)

/-- **Nothing is recorded that was not approved.** -/
theorem inConsent_allowed (h : (consentContract (requests st db d req) db).History ⟨db, []⟩ w) :
    ∀ earlier, earlier <:+ w.trace → InConsent userId clientId scope (replay db earlier) →
      Allowed st db d req w.trace userId clientId scope := by
  induction h with
  | start =>
      intro earlier hsuffix hrecorded
      rw [List.suffix_nil.1 hsuffix] at hrecorded
      exact .inl hrecorded
  | @note w h j q s ih =>
      intro earlier hsuffix hrecorded
      rcases List.suffix_cons_iff.1 hsuffix with rfl | hsuffix
      · exact (ih w.trace List.suffix_rfl hrecorded).mono (List.suffix_cons _ _)
      · exact (ih earlier hsuffix hrecorded).mono (List.suffix_cons _ _)
  | @commit w h j log hdistinct hguar ih =>
      intro earlier hsuffix hrecorded
      rcases List.suffix_cons_iff.1 hsuffix with rfl | hsuffix
      · have hw := h.replay_eq
        rw [h.replay_commit] at hrecorded
        rcases inConsent_install hguar hrecorded with hold | ⟨r, -, happroving, rfl, rfl, hscope⟩
        · exact (ih w.trace List.suffix_rfl (hw ▸ hold)).mono (List.suffix_cons _ _)
        · obtain ⟨approved, happroves, hsaw⟩ := happroving.union
          obtain ⟨read, hread, hunion⟩ := hsaw.held
          rcases (hunion scope).1 hscope with hseen | hmem
          · exact (ih read hread hseen).mono (List.suffix_cons _ _)
          · exact .inr ⟨j, approved, happroves.mono (List.suffix_cons _ _), hmem⟩
      · exact (ih earlier hsuffix hrecorded).mono (List.suffix_cons _ _)

theorem Issuing.mono {trace' : List (Entry ι Sharp)} {r : Request} {c : AuthorizationCode}
    (h : Issuing st (d i) db i trace r c) (hlater : trace <:+ trace') :
    Issuing st (d i) db i trace' r c := by
  obtain ⟨headers, hr, hsession⟩ := h.session
  obtain ⟨scope, hscope, hheld⟩ := h.scopes
  exact ⟨⟨headers, hr, hsession.mono hlater⟩, scope, hscope, hheld.mono hlater⟩

/-- **Codes that can be redeemed are old, or issued for what was recorded.** -/
theorem unused_issued (h : (consentContract (requests st db d req) db).History ⟨db, []⟩ w) :
    ∀ c ∈ w.db .codes, AuthorizationCode.usedAt c = none →
      c ∈ db .codes ∨ ∃ i, Issuing st (d i) db i w.trace (req i) c := by
  induction h with
  | start => exact fun c hc _ => .inl hc
  | note h j q s ih =>
      intro c hc hunused
      exact (ih c hc hunused).imp_right fun ⟨i, hissuing⟩ => ⟨i, hissuing.mono (List.suffix_cons _ _)⟩
  | commit h j log hdistinct hguar ih =>
      intro c hc hunused
      rcases mem_install hc with hlog | ⟨hc, -⟩
      · cases hguar _ hlog with
        | code _ hissuing => exact .inr ⟨j, hissuing.mono (List.suffix_cons _ _)⟩
        | used _ hused => exact absurd hunused hused
        | other _ hcodes _ => exact absurd rfl hcodes
      · exact (ih c hc hunused).imp_right fun ⟨i, hissuing⟩ => ⟨i, hissuing.mono (List.suffix_cons _ _)⟩

/-- **The consents of others stay.** -/
theorem others_kept {W : Warrants ι} (h : (consentContract W db).History ⟨db, []⟩ w)
    (hnone : ∀ j approved, ¬W.approves j w.trace userId clientId approved)
    {r : OAuthConsent} (huser : r.userId = userId) (hclient : r.clientId = clientId) :
    r ∈ w.db .consents ↔ r ∈ db .consents := by
  induction h with
  | start => exact Iff.rfl
  | note h j q s ih =>
      exact ih fun j approved h => hnone j approved (W.mono (List.suffix_cons _ _) h)
  | @commit w h j log hdistinct hguar ih =>
      have hnone' (j : ι) (approved : ScopeSet) : ¬W.approves j w.trace userId clientId approved :=
        fun h => hnone j approved (W.mono (List.suffix_cons _ _) h)
      have hversion (r' : OAuthConsent) (hlog : (⟨Table.consents, r'⟩ : Version Sharp) ∈ log) :
          ¬(r'.userId = userId ∧ r'.clientId = clientId) := by
        rintro ⟨rfl, rfl⟩
        cases hguar _ hlog with
        | consent _ happroving hpair =>
            obtain ⟨approved, happroves, -⟩ := happroving.union
            exact hnone' j approved happroves
        | other _ _ hconsents => exact absurd rfl hconsents
      refine Iff.trans ⟨fun hr => ?_, fun hr => ?_⟩ (ih hnone')
      · exact (consent_cases hr).resolve_left fun hlog => hversion r hlog ⟨huser, hclient⟩
      · refine (mem_install_of_ne (S := Sharp) fun v hv hid => ?_).2 hr
        obtain ⟨t, r'⟩ := v
        obtain rfl : t = .consents := congrArg Prod.fst hid
        cases hguar _ hv with
        | consent _ happroving hpair =>
            have hid : r.id = r'.id := (Sum.inl.inj (congrArg Prod.snd hid)).symm
            obtain ⟨huser', hclient'⟩ := hpair r (h.replay_eq ▸ hr) hid
            exact hversion r' hv ⟨huser' ▸ huser, hclient' ▸ hclient⟩
        | other _ _ hconsents => exact absurd rfl hconsents

end histories

/-! ### Runs -/

/-- The code is for a user who was signed in at the request, and for scopes that had been in the active
consent, each of which was there at the start or had been approved. -/
def Consented (st : AppState) (db : Db) (d : ι → Draws) (req : ι → Request)
    (trace : List (Entry ι Sharp)) (c : AuthorizationCode) : Prop :=
  ∃ i headers, ∃ scope : ScopeSet, (req i).headers? = some headers ∧
    SawSession st (d i) db i trace headers c.userId ∧ c.scope = scope.toString ∧
    (Held db trace fun s => ∀ x ∈ scope, InConsent c.userId c.clientId x s) ∧
    ∀ x ∈ scope, Allowed st db d req trace c.userId c.clientId x

section runs

variable [Fintype ι] [DecidableEq ι] {st : AppState} {es : List Event} {db : Db} {d : ι → Draws}
  {req : ι → Request} {schedule : List (ι × Bool)} {m : Machine ι Sharp Empty Response}

theorem Run.consents (run : Run st es db) (hrun : (serveTogether st d req db).run schedule = some m) :
    (consentContract (requests st db d req) db).History ⟨db, []⟩ m.world :=
  (Machine.run_ok (C := consentContract (requests st db d req) db) (Q := fun _ _ _ => True) sharp_keyed
    run.unique.distinct (fun i => respond_consents (req i) rfl rfl) hrun).history

/-- What holds of consents and codes after requests that ran at the same time. -/
structure ConsentsSound (st : AppState) (db : Db) (d : ι → Draws) (req : ι → Request)
    (w : World ι Sharp) : Prop where
  /-- An active consent holds nothing that was not approved for it. -/
  allowed : ∀ userId clientId scope, InConsent userId clientId scope w.db →
    Allowed st db d req w.trace userId clientId scope
  /-- A code that can be redeemed was there before, or was issued for what was approved. -/
  codes : ∀ c ∈ w.db .codes, AuthorizationCode.usedAt c = none →
    c ∈ db .codes ∨ Consented st db d req w.trace c
  /-- A scope is lost only to an approval of other scopes that had read the consent without it. -/
  kept : ∀ userId clientId scope later earlier, w.trace = later ++ earlier →
    InConsent userId clientId scope (replay db earlier) →
      InConsent userId clientId scope w.db ∨
        Overwritten st db d req w.trace userId clientId scope later earlier
  /-- Consents that no request approves stay as they are. -/
  others : ∀ userId clientId, (∀ i approved,
    ¬ApprovesScopes st (d i) db i w.trace (req i) userId clientId approved) →
      ∀ r : OAuthConsent, r.userId = userId → r.clientId = clientId →
        (r ∈ w.db .consents ↔ r ∈ db .consents)

/-- **Approvals at the same time.**  Whatever requests run at the same time, however their statements
interleave and fail: nothing is recorded or issued that was not approved, and an approval is lost only
to one that overlaps with it. -/
theorem consent_races (run : Run st es db) (hrun : (serveTogether st d req db).run schedule = some m) :
    ConsentsSound st db d req m.world := by
  have h := run.consents hrun
  constructor
  case allowed =>
    intro userId clientId scope hrecorded
    exact inConsent_allowed h m.world.trace List.suffix_rfl (h.replay_eq ▸ hrecorded)
  case codes =>
    intro c hc hunused
    refine (unused_issued h c hc hunused).imp_right fun ⟨i, hissuing⟩ => ?_
    obtain ⟨headers, hreq, hsession⟩ := hissuing.session
    obtain ⟨scope, hscope, hheld⟩ := hissuing.scopes
    refine ⟨i, headers, scope, hreq, hsession, hscope, hheld, fun x hx => ?_⟩
    obtain ⟨earlier, hsuffix, hrecorded⟩ := hheld
    exact inConsent_allowed h earlier hsuffix (hrecorded x hx)
  case kept =>
    intro userId clientId scope later earlier htrace hrecorded
    have hkept := inConsent_kept h [] later earlier htrace hrecorded
    rwa [← htrace, ← h.replay_eq] at hkept
  case others => exact fun userId clientId hnone r => others_kept h hnone

end runs

/-! ### An approval that is lost -/

namespace Sample

/-- The consent page in two tabs, the first one for fewer scopes. -/
def tabs (i : Fin 2) : Request :=
  if i.val = 0 then .consent signedInBrowser ({ request none with scope := some "openid" }.toPairs ++
    [("csrf_token", "x"), ("decision", "approve")])
  else .consent signedInBrowser consentForm

/-- The first tab looks up the consent, then the second one is served, then the first one goes on. -/
def overlapping : List (Fin 2 × Bool) :=
  turns [false, false, false, false, true, true, true, true, true, true, false, false]

/-- The scopes the user has approved for the first client. -/
def approvedScopes (db : Db) : List (List String) := db.consents.map fun r => r.scopes

theorem run_overlapping : (((serveTogether state (fun i : Fin 2 => draws (4 + i)) tabs registered).run
    overlapping).map fun m => ((answer? (m.threads 0).prog).isSome, (answer? (m.threads 1).prog).isSome,
      approvedScopes m.world.db)) = some (true, true, [["openid"]]) := by
  decide +kernel

/-- Both tabs have been answered, and the scopes of the second one are lost. -/
theorem consent_races_overlapping : ∃ m, (serveTogether state (fun i : Fin 2 => draws (4 + i)) tabs
    registered).run overlapping = some m ∧ (answer? (m.threads 1).prog).isSome = true ∧
      approvedScopes m.world.db = [["openid"]] ∧
      ConsentsSound state registered (fun i : Fin 2 => draws (4 + i)) tabs m.world := by
  obtain ⟨m, hrun, h⟩ := Option.map_eq_some_iff.1 run_overlapping
  obtain ⟨-, h⟩ := Prod.mk.inj h
  obtain ⟨hanswered, hscopes⟩ := Prod.mk.inj h
  exact ⟨m, hrun, hanswered, hscopes, consent_races served_registered.run hrun⟩

end Sample

end SharpOauth
