import SharpOauth.AuthorizationSafety
import SharpOauth.FormRoundTrip

/-! # The sign-in detour

An authorization request that needs a sign-in travels as a path: `decide` writes it into
`return_to`, the sign-in page checks that path and sends the browser back to it, and the
endpoint reads the request from its query.

* A request is read back from its own pairs, whatever fields stand around them
  (`AuthorizationRequest.fromParams_of_perm`); the consent form relies on this as well.
* Removing `login` from `prompt` and dropping `max_age` changes nothing else
  (`checkRequest_withoutReauthentication`), and a request without them never needs a sign-in
  from a browser that is signed in. -/

namespace SharpOauth

open Authorization

namespace Authorization

namespace AuthorizationRequest

/-- The fields of a request that are sent on. -/
def fields (r : AuthorizationRequest) : List (String × Option String) :=
  [("client_id", r.clientId), ("redirect_uri", r.redirectUri), ("response_type", r.responseType),
    ("response_mode", r.responseMode), ("scope", r.scope), ("state", r.state),
    ("code_challenge", r.codeChallenge), ("code_challenge_method", r.codeChallengeMethod),
    ("nonce", r.nonce), ("prompt", r.prompt), ("max_age", r.maxAge)]

/-- The names the endpoint reads. -/
def names : List String :=
  ["client_id", "redirect_uri", "response_type", "response_mode", "scope", "state",
    "code_challenge", "code_challenge_method", "nonce", "prompt", "max_age", "request",
    "request_uri"]

/-- A request as it arrives: a field that is present is not empty, and nothing asks for a
request object. -/
structure Plain (r : AuthorizationRequest) : Prop where
  nonempty : ∀ name, (name, some "") ∉ r.fields
  noObject : r.hasRequestObject = false
  noUri : r.hasRequestUri = false

theorem mem_toPairs {r : AuthorizationRequest} {name value : String} :
    (name, value) ∈ r.toPairs ↔ (name, some value) ∈ r.fields := by
  have htoPairs : r.toPairs = r.fields.filterMap fun p => p.2.map fun v => (p.1, v) := rfl
  rw [htoPairs, List.mem_filterMap]
  constructor
  · rintro ⟨⟨n, v⟩, hmem, h⟩
    obtain ⟨v, rfl, h⟩ := Option.map_eq_some_iff.1 h
    cases h
    exact hmem
  · exact fun h => ⟨_, h, rfl⟩

theorem toPairs_names (r : AuthorizationRequest) :
    (r.toPairs.map Prod.fst).Sublist (r.fields.map Prod.fst) := by
  have hsublist (l : List (String × Option String)) :
      ((l.filterMap fun p => p.2.map fun v => (p.1, v)).map Prod.fst).Sublist
        (l.map Prod.fst) := by
    induction l with
    | nil => exact List.Sublist.refl _
    | cons x l ih =>
        obtain ⟨name, value⟩ := x
        cases value with
        | none => exact ih.cons _
        | some value => exact ih.cons_cons _
  exact hsublist r.fields

theorem fields_names (r : AuthorizationRequest) :
    r.fields.map Prod.fst = names.take 11 := rfl

theorem toPairs_nodup (r : AuthorizationRequest) : (r.toPairs.map Prod.fst).Nodup := by
  have hnodup : (names.take 11).Nodup := by decide
  exact (r.fields_names ▸ hnodup).sublist r.toPairs_names

theorem names_of_toPairs {r : AuthorizationRequest} {p : String × String} (h : p ∈ r.toPairs) :
    p.1 ∈ names := by
  have hmem := r.toPairs_names.subset (List.mem_map_of_mem h)
  rw [fields_names] at hmem
  exact List.mem_of_mem_take hmem

/-- **A request is read back from its pairs**, with any other fields around them. -/
theorem fromParams_of_perm {r : AuthorizationRequest} (hr : r.Plain)
    {extra pairs : List (String × String)} (hperm : pairs.Perm (extra ++ r.toPairs))
    (hextra : ∀ p ∈ extra, p.1 ∉ names) {params : Params}
    (hparams : Params.fromPairs pairs = .ok params) : fromParams params = r := by
  have hget (name : String) (hname : name ∈ names) (value : String) :
      params.get name = some value ↔ (name, some value) ∈ r.fields := by
    rw [Params.get_eq_some_iff hparams, hperm.mem_iff, List.mem_append, mem_toPairs]
    constructor
    · rintro ⟨h | h, -⟩
      · exact absurd hname (hextra _ h)
      · exact h
    · refine fun h => ⟨.inr h, fun hvalue => hr.nonempty name ?_⟩
      rwa [← hvalue]
  have hfield (name : String) (hname : name ∈ names) (value : Option String)
      (h : ∀ v, (name, some v) ∈ r.fields ↔ value = some v) : params.get name = value :=
    Option.ext fun v => (hget name hname v).trans (h v)
  have hnone (name : String) (hname : name ∈ names) (h : ∀ v, (name, some v) ∉ r.fields) :
      (params.get name).isSome = false := by
    rw [hfield name hname none fun v => iff_of_false (h v) (by simp)]
    rfl
  obtain ⟨hnonempty, hobject, huri⟩ := hr
  obtain ⟨clientId, redirectUri, responseType, responseMode, scope, state, codeChallenge,
    codeChallengeMethod, nonce, prompt, maxAge, hasRequestObject, hasRequestUri⟩ := r
  cases hobject
  cases huri
  rw [fromParams, mk.injEq]
  refine ⟨?_, ?_, ?_, ?_, ?_, ?_, ?_, ?_, ?_, ?_, ?_, ?_, ?_⟩
  case refine_12 => exact hnone _ (by decide) fun v => by simp [fields]
  case refine_13 => exact hnone _ (by decide) fun v => by simp [fields]
  all_goals exact hfield _ (by decide) _ fun v => by simp [fields, eq_comm]

theorem fromParams_nonempty (params : Params) (name : String) :
    (name, some "") ∉ (fromParams params).fields := by
  intro h
  have hget : ∃ name, params.get name = some "" := by
    simp only [fields, fromParams, List.mem_cons, Prod.mk.injEq, List.not_mem_nil, or_false] at h
    rcases h with h | h | h | h | h | h | h | h | h | h | h <;> exact ⟨_, h.2.symm⟩
  obtain ⟨name, hget⟩ := hget
  exact Params.get_ne_empty hget rfl

end AuthorizationRequest

/-! ### The prompt -/

theorem not_mem_of_mem_splitOn {sep : Char} {l : List Char} :
    ∀ part ∈ l.splitOn sep, sep ∉ part := by
  induction l with
  | nil => simp
  | cons c l ih =>
      intro part hpart
      rw [List.splitOn_cons_eq_if_modifyHead] at hpart
      split_ifs at hpart with hc
      · rcases List.mem_cons.1 hpart with rfl | hpart
        · exact List.not_mem_nil
        · exact ih part hpart
      · obtain ⟨head, rest, hsplit⟩ := List.exists_cons_of_ne_nil (List.splitOn_ne_nil sep l)
        rw [hsplit, List.modifyHead_cons] at hpart
        rw [hsplit] at ih
        rcases List.mem_cons.1 hpart with rfl | hpart
        · rw [List.mem_cons, not_or]
          refine ⟨fun h => hc ?_, ih head List.mem_cons_self⟩
          rw [h, beq_self_eq_true]
        · exact ih part (List.mem_cons_of_mem _ hpart)

/-- Parts of a text that are joined again are split as they were. -/
theorem splitAll_intercalate {raw : String} {l : List String} (hne : l ≠ [])
    (hl : l ⊆ splitAll ' ' raw) : splitAll ' ' (" ".intercalate l) = l := by
  have hsep : ∀ part ∈ l.map String.toList, ' ' ∉ part := by
    intro part hpart
    obtain ⟨s, hs, rfl⟩ := List.mem_map.1 hpart
    obtain ⟨t, ht, rfl⟩ := List.mem_map.1 (hl hs)
    rw [String.toList_ofList]
    exact not_mem_of_mem_splitOn t ht
  have hspace : " ".toList = [' '] := rfl
  rw [splitAll, String.toList_intercalate, hspace, List.splitOn_intercalate _ hsep (by simpa using hne)]
  simp

namespace Prompt

/-- The values of a prompt. -/
def values (raw : Option String) : List String := (splitAll ' ' (raw.getD "")).filter (· ≠ "")

theorem collect_without_login (values : List String) : ∀ p q : Prompt, p.collect values = some q →
    { p with login := false }.collect (values.filter (· ≠ "login")) =
      some { q with login := false } := by
  induction values with
  | nil =>
      intro p q h
      cases h
      rfl
  | cons value values ih =>
      intro p q h
      by_cases hlogin : value = "login"
      · subst hlogin
        rw [List.filter_cons_of_neg (by simp)]
        have hnone : ¬"login" = "none" := by decide
        rw [collect, if_neg hnone, if_pos rfl] at h
        exact ih { p with login := true } q h
      · rw [List.filter_cons_of_pos (by simpa using hlogin)]
        rw [collect] at h ⊢
        simp only [if_neg hlogin] at h ⊢
        split_ifs at h ⊢
        · exact ih _ _ h
        · exact ih _ _ h
        · exact ih _ _ h

theorem values_without_login (raw : Option String) :
    values ((raw.map fun prompt =>
      " ".intercalate ((splitAll ' ' prompt).filter fun value => value ≠ "login")).filter (· ≠ "")) =
      (values raw).filter (· ≠ "login") := by
  cases raw with
  | none => rfl
  | some raw =>
      have hempty : values Option.none = [] := rfl
      rw [Option.map_some, Option.filter_some]
      by_cases hl : (splitAll ' ' raw).filter (fun value => value ≠ "login") = []
      · have hnone : (values (some raw)).filter (· ≠ "login") = [] := by
          rw [values, List.filter_filter]
          refine List.filter_eq_nil_iff.2 fun x hx hboth => ?_
          have hmem : x ∈ (splitAll ' ' raw).filter (fun value => value ≠ "login") :=
            List.mem_filter.2 ⟨hx, by simp_all⟩
          rw [hl] at hmem
          exact absurd hmem List.not_mem_nil
        rw [hl, String.intercalate_nil, hnone]
        exact hempty
      · have hsplit := splitAll_intercalate hl (List.filter_subset_self _)
        have hcomm : (values (some raw)).filter (· ≠ "login") =
            ((splitAll ' ' raw).filter fun value => value ≠ "login").filter (· ≠ "") := by
          rw [values, List.filter_filter, List.filter_filter]
          simp only [Option.getD_some, Bool.and_comm]
        rw [hcomm]
        split_ifs with hjoined
        · rw [values, Option.getD_some, hsplit]
        · -- The parts that are left are all empty.
          have hjoined : " ".intercalate ((splitAll ' ' raw).filter fun value => value ≠ "login") = "" := by
            simpa using hjoined
          rw [hjoined] at hsplit
          rw [← hsplit]
          rfl

/-- **Without `login` a prompt asks for everything else that it asked for.** -/
theorem parse_without_login {raw : Option String} {p : Prompt} (h : parse raw = some p) :
    parse ((raw.map fun prompt =>
      " ".intercalate ((splitAll ' ' prompt).filter fun value => value ≠ "login")).filter (· ≠ "")) =
      some { p with login := false } := by
  have hvalues (raw : Option String) : parse raw = (do
      let prompt ← collect ⟨false, false, false⟩ (values raw)
      if prompt.none && (prompt.login || prompt.consent) then Option.none else some prompt) := rfl
  rw [hvalues] at h ⊢
  obtain ⟨q, hq, h⟩ := Option.bind_eq_some_iff.1 h
  rw [values_without_login]
  have hcollect := collect_without_login _ _ _ hq
  refine Option.bind_eq_some_iff.2 ⟨_, hcollect, ?_⟩
  split_ifs at h with hconflict
  obtain rfl := Option.some.inj h
  refine if_neg ?_
  simp only [Bool.and_eq_true, Bool.or_eq_true] at hconflict ⊢
  rintro ⟨hnone, hconsent⟩
  rcases hconsent with hlogin | hconsent
  · cases hlogin
  · exact hconflict ⟨hnone, .inr hconsent⟩

end Prompt

/-! ### The request without a forced sign-in -/

/-- What remains of a request after the sign-in it asked for. -/
def ValidatedRequest.signedIn (v : ValidatedRequest) : ValidatedRequest :=
  { v with prompt := { v.prompt with login := false }, maxAge := none }

theorem checkRequest_withoutReauthentication {client : OAuthClient} {uri : String}
    {r : AuthorizationRequest} {v : ValidatedRequest} (h : checkRequest client uri r = .ok v) :
    checkRequest client uri r.withoutReauthentication = .ok v.signedIn := by
  simp only [checkRequest, Check.bind_eq_ok, Check.that_eq_ok, Check.value_eq_ok, mapError_eq_ok]
    at h ⊢
  obtain ⟨_, hobject, _, huri, _, htype, _, hmode, state, hstate, _, hlength, raw, hraw, scope, hscope,
    _, hsub, challenge, hchallenge, _, hmethod, _, hs256, _, hnonce, prompt, hprompt, maxAge, hmaxAge,
    h⟩ := h
  cases h
  exact ⟨(), hobject, (), huri, (), htype, (), hmode, state, hstate, (), hlength, raw, hraw, scope,
    hscope, (), hsub, challenge, hchallenge, (), hmethod, (), hs256, (), hnonce, _,
    Prompt.parse_without_login hprompt, none, rfl, rfl⟩

theorem checkRequest_noObject {client : OAuthClient} {uri : String} {r : AuthorizationRequest}
    {v : ValidatedRequest} (h : checkRequest client uri r = .ok v) :
    r.hasRequestObject = false ∧ r.hasRequestUri = false := by
  simp only [checkRequest, Check.bind_eq_ok, Check.that_eq_ok, Bool.not_eq_true'] at h
  obtain ⟨_, hobject, _, huri, -⟩ := h
  exact ⟨hobject, huri⟩

theorem plain_withoutReauthentication {params : Params}
    (hobject : (AuthorizationRequest.fromParams params).hasRequestObject = false)
    (huri : (AuthorizationRequest.fromParams params).hasRequestUri = false) :
    (AuthorizationRequest.fromParams params).withoutReauthentication.Plain where
  noObject := hobject
  noUri := huri
  nonempty := by
    intro name h
    have hplain := AuthorizationRequest.fromParams_nonempty params
    simp only [AuthorizationRequest.fields, AuthorizationRequest.withoutReauthentication,
      List.mem_cons, Prod.mk.injEq, List.not_mem_nil, or_false] at h
    have hmem (name : String) : (name, some "") ∉ (AuthorizationRequest.fromParams params).fields :=
      hplain name
    simp only [AuthorizationRequest.fields, List.mem_cons, Prod.mk.injEq, List.not_mem_nil, or_false,
      not_or] at hmem
    rcases h with h | h | h | h | h | h | h | h | h | h | h
    case inr.inr.inr.inr.inr.inr.inr.inr.inr.inl =>
      have hprompt := (Option.filter_eq_some_iff.1 h.2.symm).2
      simp at hprompt
    case inr.inr.inr.inr.inr.inr.inr.inr.inr.inr => cases h.2
    all_goals
      obtain ⟨h1, h2, h3, h4, h5, h6, h7, h8, h9, -, -⟩ := hmem name
      simp_all

/-! ### Decisions -/

section decisions

variable {st : AppState} {d : Draws} {faults : List Bool} {db : Db} {r : AuthorizationRequest}
  {signedIn : Option (Session × User)}

/-- What has been established when the authorization endpoint shows something to the user. -/
def NextStep.Justified (db : Db) (r : AuthorizationRequest) (signedIn : Option (Session × User))
    (now : Instant) : NextStep → Prop
  | .signIn returnTo => ∃ v, Validated db r v ∧ returnTo = r.withoutReauthentication.toPath ∧
      ∀ s ∈ signedIn, needsReauthentication v s.1 now = true
  | .askConsent v user scopes => Validated db r v ∧ (∃ session, signedIn = some (session, user)) ∧
      db.result (.scopesFindByNames v.scope.toList) = .ok scopes
  | .redirectToClient _ => True

theorem decide_justified_wp {flaky : Prop} : (decide st d r signedIn).wp flaky
    (fun res _ => ∀ step, res = .ok step → step.Justified db r signedIn d.now) ⟨db, none⟩ := by
  simp only [decide, Prog.bind_eq, Prog.pure_eq]
  refine wp_validate (by rintro e - step ⟨⟩) (by rintro m - step ⟨⟩) (by rintro c e - - step ⟨⟩)
    fun v hv => ?_
  cases hs : signedIn.filter fun s => !needsReauthentication v s.1 d.now with
  | none =>
      dsimp only
      split_ifs
      · rintro step ⟨⟩
      · rintro step ⟨⟩
        refine ⟨v, hv, rfl, fun s hs' => ?_⟩
        rw [hs', Option.filter_some] at hs
        by_contra hfresh
        rw [if_pos (by simpa using hfresh)] at hs
        cases hs
  | some s =>
      obtain ⟨session, user⟩ := s
      obtain ⟨hs, -⟩ := Option.filter_eq_some_iff.1 hs
      dsimp only
      rw [Prog.wp_lift_bind, ← Prog.bind_ret (grantedScopes _ _)]
      refine wp_grantedScopes (by rintro e - step ⟨⟩) ?_
      simp only [Prog.wp_ret]
      split_ifs
      · rw [Prog.wp_lift_bind]
        refine issueCode_wp (by rintro e - step ⟨⟩) (by rintro e - step ⟨⟩) fun _ => ?_
        cases codeUrl st d v with
        | ok url =>
            rintro step ⟨⟩
            trivial
        | error e => rintro step ⟨⟩
      · rintro step ⟨⟩
      · rw [wp_query_auto]
        refine ⟨by rintro - step ⟨⟩, fun scopes hscopes => ?_, by rintro e ⟨⟩⟩
        rintro step ⟨⟩
        exact ⟨hv, ⟨session, hs⟩, hscopes⟩

theorem decide_justified {step : NextStep}
    (h : ((decide st d r signedIn).serve faults db).1 = .ok step) :
    step.Justified db r signedIn d.now :=
  Prog.wp_serve (S := Sharp)
    (R := fun res _ => ∀ step, res = .ok step → step.Justified db r signedIn d.now) _ faults db
    decide_justified_wp step h

/-- A request that passes every check is accepted. -/
theorem validate_serve {v : ValidatedRequest} (hv : Validated db r v) :
    (validate r).serve [] db = (.ok v, db) := by
  obtain ⟨clientId, hid, hfound⟩ := hv.redirectable.found
  have hregistered := OAuthClient.hasRedirectUri_iff.2 hv.redirectable.registered
  have hfilter : (some v.client).filter OAuthClient.isActive = some v.client := by
    rw [Option.filter_some, if_pos hv.redirectable.active]
  have hquery : (sem (.clientsFindByClientId clientId)).exec clash db = (.ok (some v.client), db) := by
    rw [sem, Sql.exec, hfound]
  simp only [validate, Prog.bind_eq, hid, Prog.okOr_some, Prog.ret_bind, query, Handler.query,
    Prog.call_bind, Prog.serve, Prog.run, Conn.answer, List.headD_nil, Bool.false_eq_true, if_false,
    Conn.view, Option.getD_none, hquery, Prog.ofExcept_ok, hfilter, hv.redirectable.redirectUri,
    hregistered, Bool.not_true, hv.checked]
  rfl

end decisions

/-! ### The detour -/

theorem formChar_printable {c : Char} (h : FormChar c) : isControl c = false ∧ c ≠ '\\' := by
  have hall : ∀ n < 128, FormChar (Char.ofNat n) →
      isControl (Char.ofNat n) = false ∧ Char.ofNat n ≠ '\\' := by
    decide +kernel
  have hc := hall c.toNat (formChar_lt h)
  rw [Char.ofNat_toNat] at hc
  exact hc h

/-- A path that carries a request is a path on this server. -/
theorem safeReturnTo_toPath (r : AuthorizationRequest) : Pages.safeReturnTo r.toPath = r.toPath := by
  have hchars : r.toPath.toList = "/oauth/authorize?".toList ++ (formAppend "" r.toPairs).toList := by
    rw [AuthorizationRequest.toPath, String.toList_append]
  have hplain : ∀ c ∈ r.toPath.toList, isControl c = false ∧ c ≠ '\\' := by
    intro c hc
    rw [hchars] at hc
    rcases List.mem_append.1 hc with hc | hc
    · have hprefix : ∀ c ∈ "/oauth/authorize?".toList, isControl c = false ∧ c ≠ '\\' := by
        simp only [String.reduceToList, List.forall_mem_cons, isControl]
        simp
      exact hprefix c hc
    · rcases formAppend_charset _ c hc with h | rfl | rfl
      · exact formChar_printable h
      · decide
      · decide
  rw [Pages.safeReturnTo, if_pos]
  refine ⟨by rw [hchars]; rfl, by rw [hchars]; exact Bool.false_ne_true, fun h => (hplain _ h).2 rfl, ?_⟩
  exact List.all_eq_true.2 fun c hc => by simp [(hplain c hc).1]

/-- The query of a path that carries a request. -/
theorem splitOnce_toPath (r : AuthorizationRequest) :
    splitOnce '?' r.toPath = some ("/oauth/authorize", formAppend "" r.toPairs) := by
  have hspan : ("/oauth/authorize".toList ++ '?' :: (formAppend "" r.toPairs).toList).span (· != '?') =
      ("/oauth/authorize".toList, '?' :: (formAppend "" r.toPairs).toList) := by
    have hpath : ∀ c ∈ "/oauth/authorize".toList, (c != '?') = true := by
      simp
    rw [List.span_eq_takeWhile_dropWhile, List.takeWhile_append_of_pos hpath,
      List.dropWhile_append_of_pos hpath]
    simp
  have hchars : r.toPath.toList = "/oauth/authorize".toList ++ '?' :: (formAppend "" r.toPairs).toList := by
    rw [AuthorizationRequest.toPath, String.toList_append]
    rfl
  rw [splitOnce, hchars, hspan]
  simp

/-- The request that comes back from the detour. -/
theorem fromParams_returned {params : Params} {client : OAuthClient} {uri : String}
    {v : ValidatedRequest}
    (h : checkRequest client uri (AuthorizationRequest.fromParams params) = .ok v) :
    ∃ params', Params.fromPairs (formParse (utf8 (formAppend ""
      (AuthorizationRequest.fromParams params).withoutReauthentication.toPairs))) = .ok params' ∧
      AuthorizationRequest.fromParams params' =
        (AuthorizationRequest.fromParams params).withoutReauthentication := by
  obtain ⟨hobject, huri⟩ := checkRequest_noObject h
  rw [formParse_formAppend]
  obtain ⟨params', hparams'⟩ :=
    (Params.fromPairs_ok_iff _).2 (AuthorizationRequest.toPairs_nodup
      (AuthorizationRequest.fromParams params).withoutReauthentication)
  have hplain := plain_withoutReauthentication hobject huri
  exact ⟨params', hparams', AuthorizationRequest.fromParams_of_perm hplain
    (List.Perm.refl ([] ++ _)) (fun p hp => absurd hp List.not_mem_nil) hparams'⟩

/-- **The sign-in detour loses nothing and never loops.** -/
theorem sign_in_detour {st : AppState} {d : Draws} {faults : List Bool} {db : Db}
    {params : Params} {signedIn : Option (Session × User)} {returnTo : String}
    (h : ((decide st d (.fromParams params) signedIn).serve faults db).1 = .ok (.signIn returnTo)) :
    Pages.safeReturnTo returnTo = returnTo ∧
    ∃ v query params', (validate (.fromParams params)).serve [] db = (.ok v, db) ∧
      splitOnce '?' returnTo = some ("/oauth/authorize", query) ∧
      Params.fromPairs (formParse (utf8 query)) = .ok params' ∧
      (∀ db' : Db, db'.clients.find? (fun c => c.clientId = v.client.clientId) = some v.client →
        (validate (.fromParams params')).serve [] db' =
          (.ok { v with prompt := { v.prompt with login := false }, maxAge := none }, db')) ∧
      ∀ (st' : AppState) (d' : Draws) (faults' : List Bool) (db' : Db) (session : Session)
        (user : User) (returnTo' : String),
        ((decide st' d' (.fromParams params') (some (session, user))).serve faults' db').1 ≠
          .ok (.signIn returnTo') := by
  obtain ⟨v, hv, rfl, -⟩ := decide_justified h
  obtain ⟨params', hparams', hreturned⟩ := fromParams_returned hv.checked
  refine ⟨safeReturnTo_toPath _, v, _, params', validate_serve hv, splitOnce_toPath _, hparams', ?_, ?_⟩
  · intro db' hclient
    rw [hreturned]
    refine validate_serve (v := v.signedIn) ⟨⟨⟨v.client.clientId, ?_, hclient⟩, ?_, ?_, ?_⟩, ?_⟩
    · exact hv.redirectable.clientId
    · exact hv.redirectable.active
    · exact hv.redirectable.redirectUri
    · exact hv.redirectable.registered
    · exact checkRequest_withoutReauthentication hv.checked
  · intro st' d' faults' db' session user returnTo' hloop
    rw [hreturned] at hloop
    obtain ⟨v', hv', -, hneeds⟩ := decide_justified hloop
    -- The request that came back forces nothing.
    obtain ⟨-, -, -, -, -, hprompt, hmaxAge, -⟩ := checkRequest_ok hv'.checked
    obtain ⟨-, -, -, -, -, horiginal, -⟩ := checkRequest_ok hv.checked
    have hlogin : v'.prompt = { v.prompt with login := false } :=
      Option.some.inj (hprompt.symm.trans (Prompt.parse_without_login horiginal))
    have hneeds := hneeds (session, user) rfl
    have hnoAge : v'.maxAge = none := hmaxAge
    rw [needsReauthentication, hlogin, hnoAge] at hneeds
    simp at hneeds

end Authorization

namespace Sample

/-- The parameters of an authorization request. -/
def params (prompt : Option String) : Params := ⟨(request prompt).toPairs, (request prompt).toPairs_nodup⟩

/-- Where a decision sends the user for a sign-in. -/
def returnTo? (r : Except AuthorizationError NextStep) : Option String :=
  match r with
  | .ok (.signIn returnTo) => some returnTo
  | _ => none

theorem returnTo?_eq_some {r : Except AuthorizationError NextStep} {returnTo : String}
    (h : returnTo? r = some returnTo) : r = .ok (.signIn returnTo) := by
  unfold returnTo? at h
  split at h
  · obtain rfl := Option.some.inj h
    rfl
  · cases h

end Sample

theorem sign_in_detour_login : ∃ returnTo query, Pages.safeReturnTo returnTo = returnTo ∧
    splitOnce '?' returnTo = some ("/oauth/authorize", query) ∧
    ∃ params', Params.fromPairs (formParse (utf8 query)) = .ok params' := by
  obtain ⟨returnTo, hreturnTo⟩ := Option.isSome_iff_exists.1 (show (Sample.returnTo? ((decide
    Sample.state (Sample.draws 4) (.fromParams (Sample.params (some "login consent")))
    (some (Sample.session, Sample.user))).serve [] Sample.registered).1).isSome = true by decide +kernel)
  obtain ⟨hsafe, v, query, params', -, hquery, hparams', -⟩ :=
    Authorization.sign_in_detour (Sample.returnTo?_eq_some hreturnTo)
  exact ⟨returnTo, query, hsafe, hquery, params', hparams'⟩

end SharpOauth
