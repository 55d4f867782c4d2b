import SharpOauth.ConsentPage
import SharpOauth.Redemption

/-! # What the authorization endpoint decides

**Prompts.**  `Prompt.parse` reads the values of the `prompt` parameter into three flags
(`Prompt.collect_eq_some_iff`) and looks for a forbidden combination with `none` on the flags.
`select_account` sets no flag, and `prompt_grammar` says that this is the one thing the check
misses.

**Decisions.**  `Decision` lists the outcomes of `decide` with the exact condition of each;
`decision_wp` says that they are all.  Hence `decide_issues`: a code is issued exactly when the
request is valid, a recent enough session is there, the scopes are approved and `prompt` does not
ask for the consent page. -/

namespace SharpOauth

namespace Authorization

/-! ### Prompts -/

namespace Prompt

/-- The values that `parse` knows. -/
def supported : List String := ["none", "login", "consent", "select_account"]

/-- The grammar of OpenID Connect: known values, and `none` only on its own. -/
structure WellFormed (values : List String) : Prop where
  known : ∀ value ∈ values, value ∈ supported
  alone : "none" ∈ values → ∀ value ∈ values, value = "none"

/-- The flags stand for the values that occur. -/
structure Reads (p : Prompt) (values : List String) : Prop where
  none : p.none = true ↔ "none" ∈ values
  login : p.login = true ↔ "login" ∈ values
  consent : p.consent = true ↔ "consent" ∈ values

/-- The loop sets a flag for every value it sees, and stops at an unknown one. -/
theorem collect_eq_some_iff (values : List String) : ∀ p p' : Prompt, p.collect values = some p' ↔
    (∀ value ∈ values, value ∈ supported) ∧
      p' = ⟨p.none || values.contains "none", p.login || values.contains "login",
        p.consent || values.contains "consent"⟩ := by
  induction values with
  | nil =>
      intro p p'
      simp only [collect, List.not_mem_nil, false_implies, implies_true, true_and,
        List.contains_nil, Bool.or_false, Option.some.injEq]
      exact eq_comm
  | cons value rest ih =>
      intro p p'
      unfold collect
      by_cases hnone : value = "none"
      · rw [if_pos hnone, ih, hnone]
        simp [supported]
      rw [if_neg hnone]
      by_cases hlogin : value = "login"
      · rw [if_pos hlogin, ih, hlogin]
        simp [supported]
      rw [if_neg hlogin]
      by_cases hconsent : value = "consent"
      · rw [if_pos hconsent, ih, hconsent]
        simp [supported]
      rw [if_neg hconsent]
      by_cases hselect : value = "select_account"
      · rw [if_pos hselect, ih, hselect]
        simp [supported]
      · rw [if_neg hselect]
        simp [supported, hnone, hlogin, hconsent, hselect]

/-- **What `parse` accepts**: known values, and `none` neither with `login` nor with `consent`. -/
theorem parse_eq_some_iff {raw : Option String} {p : Prompt} : parse raw = some p ↔
    (∀ value ∈ values raw, value ∈ supported) ∧
      ¬("none" ∈ values raw ∧ ("login" ∈ values raw ∨ "consent" ∈ values raw)) ∧
      p.Reads (values raw) := by
  have hread (q : Prompt) : q = ⟨(values raw).contains "none", (values raw).contains "login",
      (values raw).contains "consent"⟩ ↔ q.Reads (values raw) := by
    constructor
    · rintro rfl
      exact ⟨List.contains_iff_mem, List.contains_iff_mem, List.contains_iff_mem⟩
    · intro h
      have hnone : q.none = (values raw).contains "none" :=
        Bool.eq_iff_iff.2 (h.none.trans List.contains_iff_mem.symm)
      have hlogin : q.login = (values raw).contains "login" :=
        Bool.eq_iff_iff.2 (h.login.trans List.contains_iff_mem.symm)
      have hconsent : q.consent = (values raw).contains "consent" :=
        Bool.eq_iff_iff.2 (h.consent.trans List.contains_iff_mem.symm)
      rw [← hnone, ← hlogin, ← hconsent]
  have hcollect : collect ⟨false, false, false⟩ (values raw) = some p ↔
      (∀ value ∈ values raw, value ∈ supported) ∧ p.Reads (values raw) := by
    rw [collect_eq_some_iff, ← hread]
    simp
  show (collect ⟨false, false, false⟩ (values raw)).bind (fun prompt =>
    if prompt.none && (prompt.login || prompt.consent) then Option.none else some prompt) = some p ↔ _
  rw [Option.bind_eq_some_iff]
  constructor
  · rintro ⟨q, hq, h⟩
    split_ifs at h with hcombined
    obtain rfl := Option.some.inj h
    obtain ⟨hknown, hreads⟩ := hcollect.1 hq
    refine ⟨hknown, ?_, hreads⟩
    rwa [← hreads.none, ← hreads.login, ← hreads.consent, ← Bool.or_eq_true, ← Bool.and_eq_true]
  · rintro ⟨hknown, halone, hreads⟩
    refine ⟨p, hcollect.2 ⟨hknown, hreads⟩, if_neg ?_⟩
    rwa [← hreads.none, ← hreads.login, ← hreads.consent, ← Bool.or_eq_true,
      ← Bool.and_eq_true] at halone

/-- `parse` implements the grammar on this parameter. -/
structure Faithful (raw : Option String) : Prop where
  accepts : (∃ p, parse raw = some p) ↔ WellFormed (values raw)
  flags : ∀ p, parse raw = some p → p.Reads (values raw)

/-- **The grammar is implemented, except that `none` goes through together with
`select_account`.** -/
theorem prompt_grammar (raw : Option String) : Faithful raw ↔
    ¬("none" ∈ values raw ∧ "select_account" ∈ values raw ∧
      ∀ value ∈ values raw, value = "none" ∨ value = "select_account") := by
  have hreads : ∃ p : Prompt, p.Reads (values raw) := by
    refine ⟨⟨(values raw).contains "none", (values raw).contains "login",
      (values raw).contains "consent"⟩, ?_⟩
    exact ⟨List.contains_iff_mem, List.contains_iff_mem, List.contains_iff_mem⟩
  have hparse : (∃ p, parse raw = some p) ↔ (∀ value ∈ values raw, value ∈ supported) ∧
      ¬("none" ∈ values raw ∧ ("login" ∈ values raw ∨ "consent" ∈ values raw)) := by
    simp only [parse_eq_some_iff, ← and_assoc, exists_and_left]
    exact and_iff_left hreads
  constructor
  · rintro ⟨haccepts, -⟩ ⟨hnone, hselect, honly⟩
    have hparsed : ∃ p, parse raw = some p := by
      refine hparse.2 ⟨fun value hvalue => ?_, ?_⟩
      · rcases honly value hvalue with rfl | rfl <;> decide
      · rintro ⟨-, hlogin | hconsent⟩
        · exact absurd (honly _ hlogin) (by decide)
        · exact absurd (honly _ hconsent) (by decide)
    exact absurd ((haccepts.1 hparsed).alone hnone _ hselect) (by decide)
  · intro hexcept
    refine ⟨hparse.trans ?_, fun p hp => (parse_eq_some_iff.1 hp).2.2⟩
    constructor
    · rintro ⟨hknown, hcombined⟩
      refine ⟨hknown, fun hnone value hvalue => ?_⟩
      have honly (value : String) (hvalue : value ∈ values raw) :
          value = "none" ∨ value = "select_account" := by
        have hmem := hknown value hvalue
        simp only [supported, List.mem_cons, List.not_mem_nil, or_false] at hmem
        rcases hmem with rfl | rfl | rfl | rfl
        · exact .inl rfl
        · exact absurd ⟨hnone, .inl hvalue⟩ hcombined
        · exact absurd ⟨hnone, .inr hvalue⟩ hcombined
        · exact .inr rfl
      rcases honly value hvalue with rfl | rfl
      · rfl
      · exact absurd ⟨hnone, hvalue, honly⟩ hexcept
    · rintro ⟨hknown, halone⟩
      refine ⟨hknown, ?_⟩
      rintro ⟨hnone, hlogin | hconsent⟩
      · exact absurd (halone hnone _ hlogin) (by decide)
      · exact absurd (halone hnone _ hconsent) (by decide)

/-- `none` goes through together with `select_account`. -/
theorem prompt_none_select_account : ¬Faithful (some "none select_account") := by
  intro h
  have hwell := h.accepts.1 ⟨⟨true, false, false⟩, by decide +kernel⟩
  have hselect : "select_account" ∈ values (some "none select_account") := by decide +kernel
  have hnone : "none" ∈ values (some "none select_account") := by decide +kernel
  exact absurd (hwell.alone hnone _ hselect) (by decide)

end Prompt

/-! ### Decisions -/

/-- The user has approved every requested scope, and has not withdrawn that. -/
def PreApproved (db : Db) (v : ValidatedRequest) (user : User) : Prop :=
  ∃ c ∈ db.consents, c.userId = user.id ∧ c.clientId = v.client.id ∧ c.revokedAt = none ∧
    ∀ x ∈ v.scope, x ∈ c.scopes

section decisions

variable {st : AppState} {es : List Event} {d : Draws} {r : AuthorizationRequest} {db : Db}
  {signedIn : Option (Session × User)} {v : ValidatedRequest} {user : User}

theorem preApproved_iff (hu : db.Unique) : PreApproved db v user ↔
    (db.activeScopes user.id v.client.id).any (fun granted => v.scope.isSubsetOf granted) = true := by
  rw [Option.any_eq_true]
  constructor
  · rintro ⟨c, hc, huser, hclient, hactive, hscopes⟩
    refine ⟨ScopeSet.ofList c.scopes, ?_, ?_⟩
    · -- The constraint on the pair leaves one row.
      have hfind := hu.find (t := .consents) (x := c)
        (p := fun r : OAuthConsent => r.userId = user.id ∧ r.clientId = v.client.id ∧ r.revokedAt = none)
        hc (by simp [huser, hclient, hactive]) fun r hr => by
          rw [decide_eq_true_eq] at hr
          simp [clash, hr, huser, hclient]
      rw [Db.activeScopes, hfind]
      rfl
    · exact ScopeSet.isSubsetOf_iff.2 fun x hx => ScopeSet.mem_ofList.2 (hscopes x hx)
  · rintro ⟨granted, hgranted, hsubset⟩
    rw [Db.activeScopes, Option.map_map, Option.map_eq_some_iff] at hgranted
    obtain ⟨c, hc, rfl⟩ := hgranted
    have hp := List.find?_some hc
    simp only [decide_eq_true_eq] at hp
    refine ⟨c, List.mem_of_find?_eq_some hc, hp.1, hp.2.1, hp.2.2, fun x hx => ?_⟩
    exact ScopeSet.mem_ofList.1 (ScopeSet.isSubsetOf_iff.1 hsubset x hx)

/-- The outcomes of an authorization request, and when they occur. -/
inductive Decision (st : AppState) (d : Draws) (r : AuthorizationRequest) (db : Db)
    (signedIn : Option (Session × User)) : Except AuthorizationError NextStep → Db → Prop where
  | refused (e : AuthorizationError) (h : ∀ v, ¬Validated db r v) :
      Decision st d r db signedIn (.error e) db
  | loginRequired (v : ValidatedRequest) (hv : Validated db r v)
      (hstale : ∀ s ∈ signedIn, needsReauthentication v s.1 d.now = true)
      (hprompt : v.prompt.none = true) : Decision st d r db signedIn
        (.error (v.err "login_required" "the user is not signed in")) db
  | signIn (v : ValidatedRequest) (hv : Validated db r v)
      (hstale : ∀ s ∈ signedIn, needsReauthentication v s.1 d.now = true)
      (hprompt : v.prompt.none = false) :
      Decision st d r db signedIn (.ok (.signIn r.withoutReauthentication.toPath)) db
  | consentRequired (v : ValidatedRequest) (hv : Validated db r v) (session : Session) (user : User)
      (hs : signedIn = some (session, user)) (hfresh : needsReauthentication v session d.now = false)
      (hask : ¬(PreApproved db v user ∧ v.prompt.consent = false))
      (hprompt : v.prompt.none = true) : Decision st d r db signedIn
        (.error (v.err "consent_required" "the user has not approved these scopes")) db
  | askConsent (v : ValidatedRequest) (hv : Validated db r v) (session : Session) (user : User)
      (hs : signedIn = some (session, user)) (hfresh : needsReauthentication v session d.now = false)
      (hask : ¬(PreApproved db v user ∧ v.prompt.consent = false))
      (hprompt : v.prompt.none = false) (scopes : List ScopeDescription) :
      Decision st d r db signedIn (.ok (.askConsent v user scopes)) db
  | issued (v : ValidatedRequest) (hv : Validated db r v) (session : Session) (user : User)
      (hs : signedIn = some (session, user)) (hfresh : needsReauthentication v session d.now = false)
      (happroved : PreApproved db v user) (hconsent : v.prompt.consent = false) (url : String)
      (hurl : codeUrl st d v = .ok url)
      (hinsert : db.result (.codesInsert (newCode st.toCrates d v user session)) = .ok ()) :
      Decision st d r db signedIn (.ok (.redirectToClient url))
        (db.after (.codesInsert (newCode st.toCrates d v user session)))

/-- A code can be stored: its id and hash are new. -/
theorem Run.codesInsert_ok (run : Run st es db) (fresh : Fresh es d) (hno : NoCollision st es d)
    (session : Session) :
    db.result (.codesInsert (newCode st.toCrates d v user session)) = .ok () := by
  cases hinsert : db.result (.codesInsert (newCode st.toCrates d v user session)) with
  | ok u => rfl
  | error e =>
      obtain ⟨c, hc, hclash⟩ := Db.result_codesInsert_error _ hinsert
      obtain ⟨i, hi, hrow⟩ := run.code_origin c hc
      rw [hrow] at hclash
      rcases hclash with hid | hhash
      · exact absurd hid.symm (fresh.uuid_new i.event hi 0 0)
      · exact absurd hhash.symm (hno i.event hi)

/-- **The outcomes are all.** -/
theorem decision_wp (run : Run st es db) (fresh : Fresh es d) (hno : NoCollision st es d) :
    (decide st d r signedIn).wp False (fun res c => Decision st d r db signedIn res c.db) { db } := by
  simp only [decide, Prog.bind_eq, Prog.pure_eq]
  refine wp_validate (fun e h => h.elim) (fun m h => .refused _ h)
    (fun client err _ h => .refused _ h) fun v hv => ?_
  cases hs : signedIn.filter fun s => !needsReauthentication v s.1 d.now with
  | none =>
      have hstale : ∀ s ∈ signedIn, needsReauthentication v s.1 d.now = true := by
        intro s hsigned
        have hnot := Option.filter_eq_none_iff.1 hs s hsigned
        simpa using hnot
      dsimp only
      by_cases hprompt : v.prompt.none = true
      · rw [if_pos hprompt]
        exact .loginRequired v hv hstale hprompt
      · rw [if_neg hprompt]
        exact .signIn v hv hstale (by simpa using hprompt)
  | some s =>
      obtain ⟨session, user⟩ := s
      obtain ⟨hs, hfresh⟩ := Option.filter_eq_some_iff.1 hs
      have hfresh : needsReauthentication v session d.now = false := by simpa using hfresh
      dsimp only
      rw [Prog.wp_lift_bind, ← Prog.bind_ret (grantedScopes _ _)]
      refine wp_grantedScopes (fun e h => h.elim) ?_
      simp only [Prog.wp_ret]
      have hiff : ((db.activeScopes user.id v.client.id).any (fun granted =>
          v.scope.isSubsetOf granted) && !v.prompt.consent) = true ↔
          PreApproved db v user ∧ v.prompt.consent = false := by
        rw [preApproved_iff run.unique, Bool.and_eq_true, Bool.not_eq_true']
      by_cases happroved : PreApproved db v user ∧ v.prompt.consent = false
      · rw [if_pos (hiff.2 happroved), Prog.wp_lift_bind]
        refine issueCode_wp (fun e h => h.elim) (fun e he => ?_) fun hinsert => ?_
        · exact absurd (he.symm.trans (Run.codesInsert_ok run fresh hno session)) (by simp)
        · -- The registry holds redirect URIs that parse.
          have hclient := run.registryInv.rows v.client hv.redirectable.mem
          obtain ⟨url, hurl⟩ := codeUrl_ok (d := d) hclient hv.redirectable.registered
          rw [hurl]
          exact .issued v hv session user hs hfresh happroved.1 happroved.2 url hurl hinsert
      · rw [if_neg (fun h => happroved (hiff.1 h))]
        by_cases hprompt : v.prompt.none = true
        · rw [if_pos hprompt]
          exact .consentRequired v hv session user hs hfresh happroved hprompt
        · rw [if_neg hprompt, wp_query_auto]
          refine ⟨fun h => h.elim, fun scopes _ => ?_, fun e he => ?_⟩
          · rw [db.after_of_reads rfl]
            exact .askConsent v hv session user hs hfresh happroved (by simpa using hprompt) scopes
          · rw [Db.result, sem, Sql.exec] at he
            cases he

/-- `decide` does what it is for. -/
structure DecidesWell (st : AppState) (d : Draws) (r : AuthorizationRequest) (db : Db)
    (signedIn : Option (Session × User)) (res : Except AuthorizationError NextStep) (db' : Db) :
    Prop where
  issues : (∃ url, res = .ok (.redirectToClient url)) ↔ ∃ v session user,
    (validate r).serve [] db = (.ok v, db) ∧ signedIn = some (session, user) ∧
      needsReauthentication v session d.now = false ∧ PreApproved db v user ∧
      "consent" ∉ Prompt.values r.prompt
  code : ∀ url, res = .ok (.redirectToClient url) → ∃ v session user c code,
    (validate r).serve [] db = (.ok v, db) ∧ signedIn = some (session, user) ∧
      redirectWithParams st.toCrates v.redirectUri
        [("code", code), ("state", v.state), ("iss", st.issuer)] = .ok url ∧
      db'.codes = db.codes ++ [c] ∧ (∀ t ≠ Table.codes, db' t = db t) ∧
      c.codeHash = st.hashToken code ∧ c.clientId = v.client.id ∧ c.userId = user.id ∧
      c.redirectUri = v.redirectUri ∧ c.scope = v.scope.toString ∧
      c.codeChallenge = v.codeChallenge ∧ c.nonce = v.nonce ∧ c.authTime = session.createdAt ∧
      c.expiresAt = d.now + Duration.seconds 60 ∧ c.usedAt = none
  otherwise : (∀ url, res ≠ .ok (.redirectToClient url)) → db' = db
  silent : "none" ∈ Prompt.values r.prompt →
    (∀ returnTo, res ≠ .ok (.signIn returnTo)) ∧
      ∀ v user scopes, res ≠ .ok (.askConsent v user scopes)

/-- The flags of a validated request stand for the values of its parameter. -/
theorem Validated.reads (hv : Validated db r v) : v.prompt.Reads (Prompt.values r.prompt) := by
  obtain ⟨-, -, -, -, -, hprompt, -⟩ := checkRequest_ok hv.checked
  exact (Prompt.parse_eq_some_iff.1 hprompt).2.2

theorem Decision.decidesWell {res : Except AuthorizationError NextStep} {db' : Db}
    (h : Decision st d r db signedIn res db') : DecidesWell st d r db signedIn res db' := by
  have hvalidated {v : ValidatedRequest} (hv : (validate r).serve [] db = (.ok v, db)) :
      Validated db r v := validated_of_serve (congrArg Prod.fst hv)
  -- Without a code, one of the conditions fails and nothing happened.
  have hother {res : Except AuthorizationError NextStep}
      (hres : ∀ url, res ≠ .ok (.redirectToClient url))
      (hnot : ∀ v session user, Validated db r v → signedIn = some (session, user) →
        needsReauthentication v session d.now = false → PreApproved db v user →
        "consent" ∈ Prompt.values r.prompt)
      (hsilent : "none" ∈ Prompt.values r.prompt → (∀ returnTo, res ≠ .ok (.signIn returnTo)) ∧
        ∀ v user scopes, res ≠ .ok (.askConsent v user scopes)) :
      DecidesWell st d r db signedIn res db := by
    refine ⟨⟨fun ⟨url, hurl⟩ => absurd hurl (hres url), ?_⟩, fun url hurl => absurd hurl (hres url),
      fun _ => rfl, hsilent⟩
    rintro ⟨v, session, user, hv, hs, hfresh, happroved, hconsent⟩
    exact absurd (hnot v session user (hvalidated hv) hs hfresh happroved) hconsent
  cases h with
  | refused e h =>
      refine hother (by simp) (fun v session user hv => absurd hv (h v)) (by simp)
  | loginRequired v hv hstale hprompt =>
      refine hother (by simp [ValidatedRequest.err]) ?_ (by simp [ValidatedRequest.err])
      intro v' session user hv' hs hfresh
      rw [hv'.eq hv, hstale _ hs] at hfresh
      cases hfresh
  | signIn v hv hstale hprompt =>
      refine hother (by simp) ?_ ?_
      · intro v' session user hv' hs hfresh
        rw [hv'.eq hv, hstale _ hs] at hfresh
        cases hfresh
      · intro hnone
        rw [← hv.reads.none, hprompt] at hnone
        cases hnone
  | consentRequired v hv session user hs hfresh hask hprompt =>
      refine hother (by simp [ValidatedRequest.err]) ?_ (by simp [ValidatedRequest.err])
      intro v' session' user' hv' hs' _ happroved
      cases hs.symm.trans hs'
      rw [hv'.eq hv] at happroved
      rw [← hv.reads.consent]
      by_contra hconsent
      exact hask ⟨happroved, by simpa using hconsent⟩
  | askConsent v hv session user hs hfresh hask hprompt scopes =>
      refine hother (by simp) ?_ ?_
      · intro v' session' user' hv' hs' _ happroved
        cases hs.symm.trans hs'
        rw [hv'.eq hv] at happroved
        rw [← hv.reads.consent]
        by_contra hconsent
        exact hask ⟨happroved, by simpa using hconsent⟩
      · intro hnone
        rw [← hv.reads.none, hprompt] at hnone
        cases hnone
  | issued v hv session user hs hfresh happroved hconsent url hurl hinsert =>
      have hasked : "consent" ∉ Prompt.values r.prompt := by
        rw [← hv.reads.consent, hconsent]
        exact Bool.false_ne_true
      refine ⟨⟨fun _ => ?_, fun _ => ⟨url, rfl⟩⟩, fun url' hurl' => ?_, fun h => absurd rfl (h url),
        fun _ => by simp⟩
      · exact ⟨v, session, user, validate_serve hv, hs, hfresh, happroved, hasked⟩
      · cases hurl'
        refine ⟨v, session, user, newCode st.toCrates d v user session, _, validate_serve hv, hs, hurl,
          Db.after_codesInsert _ hinsert, fun t ht => Db.after_of_writes _ ?_, rfl, rfl, rfl, rfl, rfl,
          rfl, rfl, rfl, rfl, rfl⟩
        simp [Stmt.writes, ht]

/-- **The authorization endpoint from end to end.** -/
theorem decide_end_to_end (run : Run st es db) (fresh : Fresh es d) (hno : NoCollision st es d)
    (r : AuthorizationRequest) (signedIn : Option (Session × User)) :
    DecidesWell st d r db signedIn ((decide st d r signedIn).serve [] db).1
      ((decide st d r signedIn).serve [] db).2 := by
  have hwp : (decide st d r signedIn).wp (true ∈ ([] : List Bool))
      (fun res c => Decision st d r db signedIn res c.db) { db } := by
    simp only [List.not_mem_nil]
    exact decision_wp run fresh hno
  have hdecision := Prog.wp_serve (S := Sharp) (R := fun res db' => Decision st d r db signedIn res db')
    (decide st d r signedIn) [] db hwp
  exact hdecision.decidesWell

end decisions

end Authorization

namespace Sample

/-- Where a decision sends the browser with a code. -/
def codeRedirect? (r : Except Authorization.AuthorizationError Authorization.NextStep) :
    Option String :=
  match r with
  | .ok (.redirectToClient url) => some url
  | _ => none

theorem codeRedirect?_eq_some {url : String}
    {r : Except Authorization.AuthorizationError Authorization.NextStep}
    (h : codeRedirect? r = some url) : r = .ok (.redirectToClient url) := by
  unfold codeRedirect? at h
  split at h
  · obtain rfl := Option.some.inj h
    rfl
  · cases h

/-- The user comes back to the application that has been approved. -/
def secondDecision : Except Authorization.AuthorizationError Authorization.NextStep × Db :=
  (Authorization.decide state (draws 5) (request none) (some (session, user))).serve [] issued

theorem served_issued : ∃ es, Served 5 es issued :=
  ⟨_, served_registered.step (by decide) serve_consent⟩

end Sample

/-- The second authorization skips the consent page. -/
theorem decide_end_to_end_approved : ∃ c : AuthorizationCode,
    Db.codes Sample.secondDecision.2 = Sample.issued.codes ++ [c] ∧ c.userId = Sample.user.id ∧
      c.authTime = Sample.session.createdAt := by
  obtain ⟨es, served⟩ := Sample.served_issued
  have hno : NoCollision Sample.state es (Sample.draws 5) := by
    intro e he hhash
    obtain ⟨m, hm, hd⟩ := served.draws_lt e he
    rw [hd] at hhash
    have hall : ∀ m < 5, Sample.state.hashToken (generateToken ((Sample.draws m).secret 0)) ≠
        Sample.state.hashToken (generateToken ((Sample.draws 5).secret 0)) := by
      decide +kernel
    exact hall m hm hhash
  have hwell := Authorization.decide_end_to_end served.run (served.fresh (by decide)) hno
    (Sample.request none) (some (Sample.session, Sample.user))
  have hredirect : (Sample.codeRedirect? Sample.secondDecision.1).isSome = true := by decide +kernel
  obtain ⟨url, hurl⟩ := Option.isSome_iff_exists.1 hredirect
  obtain ⟨v, session, user, c, code, -, hs, -, hcodes, -, -, -, huser, -, -, -, -, hauth, -⟩ :=
    hwell.code url (Sample.codeRedirect?_eq_some hurl)
  cases hs
  exact ⟨c, hcodes, huser, hauth⟩

end SharpOauth
