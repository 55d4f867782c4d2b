import SharpOauth.ConsentRaces

/-! # What approvals add up to

Any number of approvals of one user for one client run at the same time.  Each one reads the active
consent and writes back its union with what is approved, in two statements of their own.

The consent holds in the end what it held at the start and everything that was approved
(`approvals_union`), if no approval writes over a scope that it has not read (`Overlooks`).  When one
does, the scope is lost (`Sample.approvals_union_not`).  The consents of other users and for other
clients stay as they are in any case. -/

namespace SharpOauth

open Authorization

variable {ι : Type}

/-- Approvals of the user, all at the same time. -/
def approveTogether (st : AppState) (d : ι → Draws) (r : ι → AuthorizationRequest)
    (session : ι → Session) (user : User) (db : Db) : Machine ι Sharp AuthorizationError String :=
  .start (fun i => completeConsent st (d i) (r i) true (session i) user) db

/-! ### Overlooked scopes -/

/-- The tables that the thread has seen in a lookup of the consent, if the entry is one. -/
def consentLookup? [DecidableEq ι] (i : ι) (userId clientId : Uuid) : Entry ι Sharp → Option Db
  | .snapshot j (.consentsFindActive u c) s =>
      if j = i ∧ u = userId ∧ c = clientId then some s else none
  | _ => none

/-- The active consent has a scope that is not approved, and was not there in the tables `seen`. -/
def Unseen (userId clientId : Uuid) (approved : ScopeSet) (db seen : Db) : Prop :=
  ∃ r ∈ db.consents, (r.userId = userId ∧ r.clientId = clientId ∧ r.revokedAt = none) ∧
    ∃ x ∈ r.scopes, x ∉ approved ∧ ¬InConsent userId clientId x seen

/-- A thread has committed a consent over a scope that its lookup of the consent has not seen, and
that it does not approve itself. -/
def Overlooks [DecidableEq ι] (userId clientId : Uuid) (approved : ι → ScopeSet) :
    List (Entry ι Sharp) → Prop
  | [] => False
  | .snapshot _ _ _ :: earlier => Overlooks userId clientId approved earlier
  | .commit i before log :: earlier =>
      ((∃ v ∈ log, v.table = .consents) ∧
        ∃ seen ∈ earlier.filterMap (consentLookup? i userId clientId),
          Unseen userId clientId (approved i) before seen) ∨
      Overlooks userId clientId approved earlier

instance InConsent.decidable (userId clientId : Uuid) (scope : String) (db : Db) :
    Decidable (InConsent userId clientId scope db) :=
  inferInstanceAs (Decidable (∃ r ∈ db.consents, r.userId = userId ∧ r.clientId = clientId ∧
    r.revokedAt = none ∧ scope ∈ r.scopes))

instance Unseen.decidable (userId clientId : Uuid) (approved : ScopeSet) (db seen : Db) :
    Decidable (Unseen userId clientId approved db seen) :=
  inferInstanceAs (Decidable (∃ r ∈ db.consents,
    (r.userId = userId ∧ r.clientId = clientId ∧ r.revokedAt = none) ∧
      ∃ x ∈ r.scopes, x ∉ approved ∧ ¬InConsent userId clientId x seen))

instance Overlooks.decidable [DecidableEq ι] (userId clientId : Uuid) (approved : ι → ScopeSet) :
    ∀ trace : List (Entry ι Sharp), Decidable (Overlooks userId clientId approved trace)
  | [] => inferInstanceAs (Decidable False)
  | .snapshot _ _ _ :: earlier => decidable userId clientId approved earlier
  | .commit i before log :: earlier =>
      have := decidable userId clientId approved earlier
      inferInstanceAs (Decidable (((∃ v ∈ log, v.table = .consents) ∧
        ∃ seen ∈ earlier.filterMap (consentLookup? i userId clientId),
          Unseen userId clientId (approved i) before seen) ∨ Overlooks userId clientId approved earlier))

theorem mem_lookups [DecidableEq ι] {i : ι} {userId clientId : Uuid} {s : Db}
    {trace : List (Entry ι Sharp)} (h : .snapshot i (.consentsFindActive userId clientId) s ∈ trace) :
    s ∈ trace.filterMap (consentLookup? i userId clientId) :=
  List.mem_filterMap.2 ⟨_, h, if_pos ⟨rfl, rfl, rfl⟩⟩

theorem upserted_snapshot {i j : ι} {userId clientId : Uuid} {q : Stmt} {s : Db}
    {trace : List (Entry ι Sharp)} : Upserted i userId clientId (.snapshot j q s :: trace) ↔
      Upserted i userId clientId trace := by
  refine ⟨fun ⟨before, log, hmem, hconsent⟩ => ?_, fun h => h.mono (List.suffix_cons _ _)⟩
  rcases List.mem_cons.1 hmem with heq | hmem
  · cases heq
  · exact ⟨before, log, hmem, hconsent⟩

theorem upserted_commit {i j : ι} {userId clientId : Uuid} {before : Db} {log : List (Version Sharp)}
    {trace : List (Entry ι Sharp)} : Upserted i userId clientId (.commit j before log :: trace) ↔
      Upserted i userId clientId trace ∨ i = j ∧
        ∃ c : OAuthConsent, ⟨Table.consents, c⟩ ∈ log ∧ c.userId = userId ∧ c.clientId = clientId := by
  constructor
  · rintro ⟨before', log', hmem, hconsent⟩
    rcases List.mem_cons.1 hmem with heq | hmem
    · cases heq
      exact .inr ⟨rfl, hconsent⟩
    · exact .inl ⟨before', log', hmem, hconsent⟩
  · rintro (h | ⟨rfl, hconsent⟩)
    · exact h.mono (List.suffix_cons _ _)
    · exact ⟨before, log, List.mem_cons_self, hconsent⟩

theorem Unseen.of_inConsent {userId clientId : Uuid} {approved : ScopeSet} {db seen : Db} {x : String}
    (h : InConsent userId clientId x db) (happroved : x ∉ approved)
    (hseen : ¬InConsent userId clientId x seen) : Unseen userId clientId approved db seen := by
  obtain ⟨r, hr, huser, hclient, hrevoked, hx⟩ := h
  exact ⟨r, hr, ⟨huser, hclient, hrevoked⟩, x, hx, happroved, hseen⟩

/-! ### Histories of approvals -/

/-- What the threads approve. -/
def approvals (db : Db) (r : ι → AuthorizationRequest) (user : User) : Warrants ι where
  approves i trace userId clientId scope := userId = user.id ∧
    ∃ v, (∃ q, Saw db i trace q fun s => Validated s (r i) v) ∧ v.client.id = clientId ∧ v.scope = scope
  issues _ _ _ := True
  others _ := False
  mono hlater h := by
    obtain ⟨huser, v, ⟨q, hsaw⟩, hv⟩ := h
    exact ⟨huser, v, ⟨q, hsaw.mono hlater⟩, hv⟩

theorem Authorization.Validated.congr {db db' : Db} {r : AuthorizationRequest} {v : ValidatedRequest}
    (h : Validated db r v) (hclients : db' .clients = db .clients) : Validated db' r v := by
  obtain ⟨clientId, hr, hfound⟩ := h.redirectable.found
  refine ⟨⟨⟨clientId, hr, ?_⟩, h.redirectable.active, h.redirectable.redirectUri,
    h.redirectable.registered⟩, h.checked⟩
  rw [← hfound]
  exact congrArg (List.find? _) hclients

section histories

variable {db : Db} {r : ι → AuthorizationRequest} {user : User} {w : World ι Sharp} {i : ι}
  {v : ι → ValidatedRequest} {userId clientId : Uuid} {scope : ScopeSet}

/-- Approvals register no clients. -/
theorem clients_kept (h : (consentContract (approvals db r user) db).History ⟨db, []⟩ w) :
    w.db .clients = db .clients := by
  induction h with
  | start => rfl
  | note h i q s ih => exact ih
  | commit h i log hdistinct hguar ih =>
      refine (install_ne fun v hv => ?_).trans ih
      cases hguar v hv with
      | other _ _ _ hothers => exact absurd hothers id
      | _ => simp

/-- What a thread approves was validated. -/
theorem approves_eq (h : (consentContract (approvals db r user) db).History ⟨db, []⟩ w)
    (hv : ∀ i, Validated db (r i) (v i))
    (happroves : (approvals db r user).approves i w.trace userId clientId scope) :
    userId = user.id ∧ (v i).client.id = clientId ∧ (v i).scope = scope := by
  obtain ⟨huser, v', ⟨q, later, earlier, htrace, hv'⟩, hclient, hscope⟩ := happroves
  have hclients := clients_kept (h.split (later ++ [.snapshot i q (replay db earlier)]) earlier
    (by rw [htrace]; simp)).1
  obtain rfl := (hv'.congr hclients.symm).eq (hv i)
  exact ⟨huser, hclient, hscope⟩

variable [DecidableEq ι]

/-- What a commit of an approval adds. -/
theorem inConsent_commit_iff (h : (consentContract (approvals db r user) db).History ⟨db, []⟩ w)
    (hv : ∀ i, Validated db (r i) (v i)) (hclient : ∀ i, (v i).client.id = clientId)
    {log : List (Version Sharp)} (hguar : ∀ u ∈ log, ConsentVersion (approvals db r user) db i w.trace u)
    (hcalm : ¬Overlooks user.id clientId (fun i => (v i).scope) (.commit i w.db log :: w.trace))
    (hseen : ∀ earlier, earlier <:+ w.trace → ∀ x, InConsent user.id clientId x (replay db earlier) →
      InConsent user.id clientId x w.db) (x : String) :
    InConsent user.id clientId x (install log w.db) ↔ InConsent user.id clientId x w.db ∨
      (∃ c : OAuthConsent, ⟨Table.consents, c⟩ ∈ log ∧ c.userId = user.id ∧ c.clientId = clientId) ∧
        x ∈ (v i).scope := by
  constructor
  · intro hnew
    rcases inConsent_install hguar hnew with hold | ⟨c, hlog, happroving, huser, hc, hx⟩
    · exact .inl hold
    · obtain ⟨scope, happroves, hsaw⟩ := happroving.union
      obtain ⟨read, hread, hunion⟩ := hsaw.held
      rcases (hunion x).1 hx with hold | hx
      · rw [huser, hc] at hold
        exact .inl (hseen read hread x hold)
      · rw [← (approves_eq h hv happroves).2.2] at hx
        exact .inr ⟨⟨c, hlog, huser, hc⟩, hx⟩
  · rintro (hold | ⟨⟨c, hlog, -⟩, hx⟩)
    · by_contra hlost
      obtain ⟨c, hlog, happroving, huser, hc, hx⟩ := cleared h.replay_eq hguar hold hlost
      obtain ⟨scope, happroves, later, read, htrace, hunion⟩ := happroving.union
      rw [hunion, ← (approves_eq h hv happroves).2.2, huser, hc] at hx
      rw [huser, hc] at htrace
      obtain ⟨hunread, hunapproved⟩ := not_or.1 hx
      have hlookup : .snapshot i (.consentsFindActive user.id clientId) (replay db read) ∈ w.trace := by
        rw [htrace]
        simp
      exact hcalm (.inl ⟨⟨_, hlog, rfl⟩, _, mem_lookups hlookup, .of_inConsent hold hunapproved hunread⟩)
    · -- The newest of the versions holds what is approved.
      obtain ⟨c', hc', hlog', -⟩ := exists_newest (s := w.db) hlog
      cases hguar _ hlog' with
      | consent _ happroving _ =>
          obtain ⟨scope, happroves, _, _, _, hunion⟩ := happroving.union
          obtain ⟨huser, hc, rfl⟩ := approves_eq h hv happroves
          exact ⟨c', hc', huser, hc.symm.trans (hclient i), happroving.unrevoked, (hunion x).2 (.inr hx)⟩
      | other _ _ hconsents => exact absurd rfl hconsents

/-- **The union.**  At any time, the consent holds what it held at the start and what has been
committed. -/
theorem inConsent_iff_upserted (h : (consentContract (approvals db r user) db).History ⟨db, []⟩ w)
    (hv : ∀ i, Validated db (r i) (v i)) (hclient : ∀ i, (v i).client.id = clientId) :
    ¬Overlooks user.id clientId (fun i => (v i).scope) w.trace → ∀ earlier, earlier <:+ w.trace →
      ∀ x, InConsent user.id clientId x (replay db earlier) ↔
        InConsent user.id clientId x db ∨ ∃ i, Upserted i user.id clientId earlier ∧ x ∈ (v i).scope := by
  induction h with
  | start =>
      intro _ earlier hsuffix x
      rw [List.suffix_nil.1 hsuffix]
      refine ⟨.inl, fun h => h.resolve_right ?_⟩
      rintro ⟨i, ⟨before, log, hmem, -⟩, -⟩
      exact absurd hmem List.not_mem_nil
  | @note w h i q s ih =>
      intro hcalm earlier hsuffix x
      rcases List.suffix_cons_iff.1 hsuffix with rfl | hsuffix
      · refine (ih hcalm w.trace List.suffix_rfl x).trans (or_congr_right (exists_congr fun j => ?_))
        exact and_congr_left fun _ => upserted_snapshot.symm
      · exact ih hcalm earlier hsuffix x
  | @commit w h i log hdistinct hguar ih =>
      intro hcalm earlier hsuffix x
      have hcalm' := (not_or.1 hcalm).2
      rcases List.suffix_cons_iff.1 hsuffix with rfl | hsuffix
      · have hnow (x : String) : InConsent user.id clientId x w.db ↔ InConsent user.id clientId x db ∨
            ∃ i, Upserted i user.id clientId w.trace ∧ x ∈ (v i).scope := by
          rw [h.replay_eq]
          exact ih hcalm' w.trace List.suffix_rfl x
        have hseen : ∀ earlier, earlier <:+ w.trace → ∀ x,
            InConsent user.id clientId x (replay db earlier) → InConsent user.id clientId x w.db := by
          intro earlier hsuffix x hx
          refine (hnow x).2 (((ih hcalm' earlier hsuffix x).1 hx).imp_right fun ⟨j, hj, hx⟩ => ?_)
          exact ⟨j, hj.mono hsuffix, hx⟩
        have hcommit := inConsent_commit_iff h hv hclient hguar hcalm hseen x
        rw [h.replay_commit, hcommit, hnow, or_assoc]
        refine or_congr_right ⟨?_, ?_⟩
        · rintro (⟨j, hj, hx⟩ | ⟨hlog, hx⟩)
          · exact ⟨j, upserted_commit.2 (.inl hj), hx⟩
          · exact ⟨i, upserted_commit.2 (.inr ⟨rfl, hlog⟩), hx⟩
        · rintro ⟨j, hj, hx⟩
          rcases upserted_commit.1 hj with hj | ⟨rfl, hlog⟩
          · exact .inl ⟨j, hj, hx⟩
          · exact .inr ⟨hlog, hx⟩
      · exact ih hcalm' earlier hsuffix x

end histories

/-! ### Runs -/

/-- The consent holds what it held before, and what has been approved. -/
structure AddedUp (db : Db) (user : User) (clientId : Uuid) (scope : ι → ScopeSet)
    (m : Machine ι Sharp AuthorizationError String) : Prop where
  /-- Whenever some of the approvals have stored their scopes. -/
  stored : ∀ x, InConsent user.id clientId x m.world.db ↔
    InConsent user.id clientId x db ∨ ∃ i, Upserted i user.id clientId m.world.trace ∧ x ∈ scope i
  /-- When all have finished. -/
  finished : (∀ i, ∃ url, (m.threads i).prog = .ret url) → ∀ x, InConsent user.id clientId x m.world.db ↔
    InConsent user.id clientId x db ∨ ∃ i, x ∈ scope i
  /-- The consents of other users, and for other clients. -/
  others : ∀ c : OAuthConsent, ¬(c.userId = user.id ∧ c.clientId = clientId) →
    (c ∈ m.world.db .consents ↔ c ∈ db .consents)

section runs

variable [Fintype ι] [DecidableEq ι] {st : AppState} {db : Db} {d : ι → Draws}
  {r : ι → AuthorizationRequest} {session : ι → Session} {user : User} {schedule : List (ι × Bool)}
  {m : Machine ι Sharp AuthorizationError String}

/-- An approval that is answered with success has stored its scopes. -/
def ApprovalOutcome (db : Db) (i : ι) (r : AuthorizationRequest) (user : User)
    (answer : Except AuthorizationError String) (w : World ι Sharp) : Prop :=
  ∀ url, answer = .ok url → ∃ v, (∃ q, Saw db i w.trace q fun s => Validated s r v) ∧
    Upserted i user.id v.client.id w.trace

theorem approveTogether_ok (hdb : Sharp.Distinct db)
    (hrun : (approveTogether st d r session user db).run schedule = some m) :
    m.Ok (consentContract (approvals db r user) db) (fun i => ApprovalOutcome db i (r i) user) ⟨db, []⟩ := by
  refine Machine.run_ok sharp_keyed hdb (fun i => ?_) hrun
  refine completeConsent_safe (fun e tx w url h => by cases h) rfl
    (fun _ v w' _ hsaw => ⟨rfl, v, hsaw, rfl, rfl⟩) (fun _ _ _ _ => trivial) ?_
  intro url v w' hsaw hupserted url' h
  exact ⟨v, hsaw, hupserted⟩

/-- **What approvals add up to.**  Any number of approvals of one user for one client run at the same
time, and their statements interleave.  If none writes over a scope that it has overlooked, the consent
holds what it held at the start and everything that was approved. -/
theorem approvals_union (hdb : Sharp.Distinct db) {v : ι → ValidatedRequest}
    (hv : ∀ i, Validated db (r i) (v i)) {clientId : Uuid} (hclient : ∀ i, (v i).client.id = clientId)
    (hrun : (approveTogether st d r session user db).run schedule = some m)
    (hcalm : ¬Overlooks user.id clientId (fun i => (v i).scope) m.world.trace) :
    AddedUp db user clientId (fun i => (v i).scope) m := by
  have hok := approveTogether_ok hdb hrun
  have hstored (x : String) : InConsent user.id clientId x m.world.db ↔ InConsent user.id clientId x db ∨
      ∃ i, Upserted i user.id clientId m.world.trace ∧ x ∈ (v i).scope := by
    rw [hok.history.replay_eq]
    exact inConsent_iff_upserted hok.history hv hclient hcalm m.world.trace List.suffix_rfl x
  constructor
  case stored => exact hstored
  case finished =>
    intro hfinished x
    refine (hstored x).trans (or_congr_right (exists_congr fun i => and_iff_right ?_))
    obtain ⟨url, hret⟩ := hfinished i
    obtain ⟨w, hlater, houtcome⟩ := hok.result i hret
    obtain ⟨v', ⟨q, hsaw⟩, hupserted⟩ := houtcome url rfl
    have hsaw' : (approvals db r user).approves i m.world.trace user.id v'.client.id v'.scope :=
      ⟨rfl, v', ⟨q, hsaw.mono hlater.trace⟩, rfl, rfl⟩
    rw [← (approves_eq hok.history hv hsaw').2.1, hclient i] at hupserted
    exact hupserted.mono hlater.trace
  case others =>
    intro c hc
    refine others_kept hok.history (fun i scope happroves => hc ?_) rfl rfl
    obtain ⟨huser, hclient', -⟩ := approves_eq hok.history hv happroves
    exact ⟨huser, hclient'.symm.trans (hclient i)⟩

end runs

/-! ### An approval in two tabs -/

namespace Sample

/-- The first tab asks for fewer scopes. -/
def tabRequests (i : Fin 2) : AuthorizationRequest :=
  if i.val = 0 then { request none with scope := some "openid" } else request none

def tabScopes (i : Fin 2) : ScopeSet :=
  .ofList (if i.val = 0 then ["openid"] else ["openid", "offline_access"])

theorem tabs_validated (i : Fin 2) : ∃ v, Validated registered (tabRequests i) v ∧
    v.client.id = clientA.id ∧ v.scope = tabScopes i := by
  have hscope : (checkRequest clientA "https://a.example/cb" (tabRequests i)).toOption.map
      (fun v => v.scope) = some (tabScopes i) := by
    fin_cases i <;> decide +kernel
  obtain ⟨v, hv, hscope⟩ := Option.map_eq_some_iff.1 hscope
  have hchecked : checkRequest clientA "https://a.example/cb" (tabRequests i) = .ok v := by
    cases h : checkRequest clientA "https://a.example/cb" (tabRequests i) with
    | error e => simp [h, Except.toOption] at hv
    | ok v' =>
        rw [h] at hv
        exact congrArg Except.ok (Option.some.inj hv)
  obtain ⟨hclient, huri, -⟩ := checkRequest_ok hchecked
  refine ⟨v, ⟨⟨⟨"sharp_client_BgYGBgYGBgYGBgYGBgYGBgYG", ?_, ?_⟩, ?_, ?_, ?_⟩, ?_⟩, by rw [hclient], hscope⟩
  · fin_cases i <;> rfl
  · rw [hclient]
    decide +kernel
  · rw [hclient]
    rfl
  · rw [huri]
    fin_cases i <;> rfl
  · rw [hclient, huri]
    decide
  · rw [hclient, huri]
    exact hchecked

/-- Both tabs are answered, and these are the scopes in the end. -/
def approvedBy (m : Machine (Fin 2) Sharp AuthorizationError String) : Option (List (List String)) :=
  (answer? (m.threads ⟨0, Nat.two_pos⟩).prog).bind fun _ =>
    (answer? (m.threads ⟨1, Nat.one_lt_two⟩).prog).map fun _ => approvedScopes m.world.db

theorem approvedBy_eq_some {m : Machine (Fin 2) Sharp AuthorizationError String} {scopes : List (List String)}
    (h : approvedBy m = some scopes) : (∀ i, ∃ url, (m.threads i).prog = .ret url) ∧
      approvedScopes m.world.db = scopes := by
  obtain ⟨url, hurl, h⟩ := Option.bind_eq_some_iff.1 h
  obtain ⟨url', hurl', h⟩ := Option.map_eq_some_iff.1 h
  refine ⟨fun i => ?_, h⟩
  fin_cases i
  · exact ⟨url, answer?_eq_some hurl⟩
  · exact ⟨url', answer?_eq_some hurl'⟩

/-- Both tabs read the consent before one of them has written it. -/
def bothRead : List (Fin 2 × Bool) := turns [false, true, false, true, true, false, true, false]

/-- The second tab reads the consent that the first one has written. -/
def oneReads : List (Fin 2 × Bool) := turns [false, true, false, false, true, true, true, false]

theorem run_bothRead : ((approveTogether state (fun i : Fin 2 => draws (4 + i)) tabRequests
    (fun _ => session) user registered).run bothRead).bind approvedBy = some [["openid"]] := by
  decide +kernel

theorem run_oneReads : ((approveTogether state (fun i : Fin 2 => draws (4 + i)) tabRequests
    (fun _ => session) user registered).run oneReads).bind (fun m => (approvedBy m).map fun scopes =>
      (scopes, decide (Overlooks user.id clientA.id tabScopes m.world.trace))) =
        some ([["offline_access", "openid"]], false) := by
  decide +kernel

/-- Both tabs have been answered, and the scopes of one of them are lost. -/
theorem approvals_union_not : ∃ m, (approveTogether state (fun i : Fin 2 => draws (4 + i)) tabRequests
    (fun _ => session) user registered).run bothRead = some m ∧
    (∀ i, ∃ url, (m.threads i).prog = .ret url) ∧
    (∀ i, ∃ v, Validated registered (tabRequests i) v ∧ v.client.id = clientA.id ∧ v.scope = tabScopes i) ∧
    ¬∀ x, InConsent user.id clientA.id x m.world.db ↔
      InConsent user.id clientA.id x registered ∨ ∃ i, x ∈ tabScopes i := by
  obtain ⟨m, hrun, h⟩ := Option.bind_eq_some_iff.1 run_bothRead
  obtain ⟨hended, hscopes⟩ := approvedBy_eq_some h
  refine ⟨m, hrun, hended, tabs_validated, fun hall => ?_⟩
  obtain ⟨c, hc, -, -, -, hx⟩ := (hall "offline_access").2 (.inr ⟨1, by decide +kernel⟩)
  have hmem : c.scopes ∈ approvedScopes m.world.db := List.mem_map_of_mem hc
  rw [hscopes, List.mem_singleton] at hmem
  simp [hmem] at hx

/-- Two tabs, one after the other. -/
theorem approvals_union_tabs : ∃ m, (approveTogether state (fun i : Fin 2 => draws (4 + i)) tabRequests
    (fun _ => session) user registered).run oneReads = some m ∧
    approvedScopes m.world.db = [["offline_access", "openid"]] ∧
    AddedUp registered user clientA.id tabScopes m := by
  obtain ⟨m, hrun, h⟩ := Option.bind_eq_some_iff.1 run_oneReads
  obtain ⟨scopes, happroved, h⟩ := Option.map_eq_some_iff.1 h
  obtain ⟨rfl, hcalm⟩ := Prod.mk.inj h
  have hcalm := of_decide_eq_false hcalm
  choose v hv hclient hscope using tabs_validated
  have htabs : tabScopes = fun i => (v i).scope := (funext hscope).symm
  rw [htabs] at hcalm ⊢
  exact ⟨m, hrun, (approvedBy_eq_some happroved).2,
    approvals_union served_registered.run.unique.distinct hv hclient hrun hcalm⟩

end Sample

end SharpOauth
