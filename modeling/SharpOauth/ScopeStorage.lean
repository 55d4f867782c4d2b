import SharpOauth.Redemption

/-! # Scopes on their way through the database and the tokens

A scope set is printed by `ScopeSet.toString` and read again by `ScopeSet.parse`, on every
exchange, on every refresh and by everyone who reads an access token.

* A set that was read once is read back from its string (`Parsed`), so that strings and sets
  determine each other (`parse_agree_iff`).
* Every writer of a scope column writes such a set, hence reading a column never fails and gives
  the set of the authorization behind the row; the same holds for the `scope` claim of every access
  token (`stored_scopes`). -/

namespace SharpOauth

open Token Authorization

/-! ### Strings and sets -/

namespace ScopeSet

/-- The set was read from some string. -/
def Parsed (s : ScopeSet) : Prop := ∃ raw, parse raw = .ok s

variable {s t : ScopeSet} {raw raw' : String}

theorem Parsed.roundTrip (h : s.Parsed) : parse s.toString = .ok s := by
  obtain ⟨raw, hraw⟩ := h
  exact parse_toString hraw

theorem Parsed.toString_inj (hs : s.Parsed) (ht : t.Parsed) : s.toString = t.toString ↔ s = t := by
  constructor
  · intro h
    have hparse := hs.roundTrip
    rw [h, ht.roundTrip] at hparse
    exact (Except.ok.inj hparse).symm
  · exact congrArg toString

theorem mem_of_parse (h : parse raw = .ok s) (x : String) : x ∈ s ↔ x ∈ tokens raw := by
  obtain ⟨-, -, rfl⟩ := parse_eq_ok_iff.1 h
  exact mem_ofList

/-- Two strings are read as the same set if and only if they have the same tokens. -/
theorem parse_agree_iff (hs : parse raw = .ok s) (ht : parse raw' = .ok t) :
    s = t ↔ ∀ x, x ∈ tokens raw ↔ x ∈ tokens raw' := by
  constructor
  · rintro rfl x
    rw [← mem_of_parse hs, mem_of_parse ht]
  · intro h
    refine ext_mem fun x => ?_
    rw [mem_of_parse hs, mem_of_parse ht, h x]

end ScopeSet

/-! ### Scopes of token responses -/

theorem storedScope_parsed {raw : String} {scope : ScopeSet} (h : storedScope raw = .ok scope) :
    scope.Parsed :=
  ⟨raw, mapError_eq_ok.1 h⟩

theorem requestedScope_parsed {raw : Option String} {requested : ScopeSet}
    (h : requestedScope raw = .ok (some requested)) : requested.Parsed := by
  cases raw with
  | none => cases h
  | some raw =>
      rw [requestedScope] at h
      cases hparse : ScopeSet.parse raw with
      | error e =>
          rw [hparse] at h
          cases h
      | ok scope =>
          rw [hparse] at h
          cases h
          exact ⟨raw, hparse⟩

theorem narrowedScope_parsed {granted scope : ScopeSet} {raw : Option String}
    {requested : Option ScopeSet} (hgranted : granted.Parsed)
    (hrequested : requestedScope raw = .ok requested)
    (hscope : narrowedScope granted requested = .ok scope) : scope.Parsed := by
  cases requested with
  | none =>
      cases hscope
      exact hgranted
  | some requested =>
      rw [narrowedScope] at hscope
      split_ifs at hscope
      cases hscope
      exact requestedScope_parsed hrequested

/-- The access token carries this set, and it is read from it again. -/
structure CarriesScope (st : AppState) (scope : ScopeSet) (tokens : TokenResponse) : Prop where
  parsed : scope.Parsed
  claims : ∃ claims : Access.AccessTokenClaims, Access.issue st claims = .ok tokens.accessToken ∧
    claims.scope = scope.toString ∧ ScopeSet.parse claims.scope = .ok scope ∧ claims.scopes = scope

section responses

variable {st : AppState} {d : Draws} {client : OAuthClient} {params : Params} {flaky : Prop}
  {db db' : Db} {tokens : TokenResponse}

theorem Token.Signed.carriesScope {userId : Uuid} {scope : ScopeSet} {authTime : Instant}
    {nonce : Option String} (h : Signed st d client userId scope authTime nonce tokens)
    (hscope : scope.Parsed) : CarriesScope st scope tokens := by
  refine ⟨hscope, _, h.accessToken, rfl, hscope.roundTrip, ?_⟩
  simp only [Access.AccessTokenClaims.scopes, Access.AccessTokenClaims.new, hscope.roundTrip]

theorem Token.CodeEffect.carriesScope
    (h : CodeEffect st d client params flaky db (.ok tokens) db') :
    ∃ scope, CarriesScope st scope tokens := by
  cases h with
  | redeemed hp record hu hb scope hscope hoffline response hsigned =>
      exact ⟨scope, (signedTokens_ok hsigned).1.carriesScope (storedScope_parsed hscope)⟩
  | redeemedOffline hp record hu hb scope hscope hoffline response hsigned hinsert =>
      obtain ⟨hparsed, hclaims⟩ :=
        (signedTokens_ok hsigned).1.carriesScope (storedScope_parsed hscope)
      exact ⟨scope, hparsed, hclaims⟩

theorem Token.RefreshEffect.carriesScope
    (h : RefreshEffect st d client params flaky db (.ok tokens) db') :
    ∃ scope, CarriesScope st scope tokens := by
  cases h with
  | refreshed hraw record hf hok requested hrequested granted scope hgranted hscope response hsigned
      hinsert =>
      have hparsed := narrowedScope_parsed (storedScope_parsed hgranted) hrequested hscope
      obtain ⟨hparsed, hclaims⟩ := (signedTokens_ok hsigned).1.carriesScope hparsed
      exact ⟨scope, hparsed, hclaims⟩

/-- An access token carries a set that is read from it again. -/
theorem serve_carriesScope {headers : HeaderMap} {pairs : List (String × String)}
    {faults : List Bool} (hbody : (serve st d faults (.token headers (some pairs)) db).1.body =
      .tokens tokens) : ∃ scope, CarriesScope st scope tokens := by
  obtain ⟨r, hr, heffect⟩ := serve_token st d headers pairs faults db
  rw [hr] at hbody
  generalize (serve st d faults (.token headers (some pairs)) db).2 = db' at heffect
  cases heffect with
  | failed => cases hbody
  | refused => cases hbody
  | code params client hl hg r db' h =>
      cases r with
      | error e => cases hbody
      | ok tokens' =>
          cases hbody
          exact h.carriesScope
  | refresh params client hl hg r db' h =>
      cases r with
      | error e => cases hbody
      | ok tokens' =>
          cases hbody
          exact h.carriesScope

end responses

/-! ### Scopes of a run -/

/-- Scopes survive being written down. -/
structure ScopesSurvive (st : AppState) (es : List Event) (db : Db) : Prop where
  /-- The scope of a code is read as the set that its authorization request asked for. -/
  codes : ∀ c ∈ db.codes, ∃ i : Issuance st, i.event ∈ es ∧ c.scope = i.validated.scope.toString ∧
    storedScope c.scope = .ok i.validated.scope
  /-- So is the scope of a refresh token. -/
  refreshTokens : ∀ t ∈ db.refreshTokens, ∃ i : Issuance st, i.event ∈ es ∧
    t.scope = i.validated.scope.toString ∧ storedScope t.scope = .ok i.validated.scope
  accessTokens : ∀ e ∈ es, ∀ headers pairs, e.req = .token headers (some pairs) →
    ∀ tokens, e.response.body = .tokens tokens → ∃ scope, CarriesScope st scope tokens

theorem TokenOrigin.mem {st : AppState} {i : Issuance st} {es : List Event} {t : RefreshToken}
    (h : TokenOrigin i es t) : i.event ∈ es := by
  cases h with
  | intro mid e h tokens hbody hissued t hhash hgrant =>
      exact List.mem_append_right _ (List.mem_cons_of_mem _ h.mem)

/-- The columns and claims of a run are read without errors. -/
theorem Run.scopesSurvive {st : AppState} {es : List Event} {db : Db} (run : Run st es db) :
    ScopesSurvive st es db where
  codes c hc := by
    obtain ⟨i, hi, hrow⟩ := run.code_origin c hc
    rw [hrow]
    exact ⟨i, hi, rfl, i.storedScope_row⟩
  refreshTokens t ht := by
    obtain ⟨i, hi⟩ := run.token_origin t ht
    refine ⟨i, hi.mem, hi.grantOf.scope, ?_⟩
    rw [hi.grantOf.scope]
    exact i.storedScope_row
  accessTokens e he headers pairs hreq tokens hbody := by
    obtain ⟨later, earlier, rfl⟩ := List.append_of_mem he
    obtain ⟨db', run'⟩ := run.upTo
    obtain ⟨-, -, hresponse, -⟩ := run'.cons
    rw [hresponse, Event.answer, hreq] at hbody
    exact serve_carriesScope hbody

/-- **Scope strings round-trip, and stored scopes never fail to parse.** -/
theorem stored_scopes : (∀ raw s, ScopeSet.parse raw = .ok s →
      ScopeSet.parse s.toString = .ok s ∧
      ∀ raw' t, ScopeSet.parse raw' = .ok t →
        (s = t ↔ ∀ x, x ∈ ScopeSet.tokens raw ↔ x ∈ ScopeSet.tokens raw') ∧
        (s = t ↔ s.toString = t.toString)) ∧
    ∀ (st : AppState) (es : List Event) (db : Db), Run st es db → ScopesSurvive st es db := by
  refine ⟨fun raw s hs => ⟨ScopeSet.parse_toString hs, fun raw' t ht => ⟨?_, ?_⟩⟩,
    fun st es db run => run.scopesSurvive⟩
  · exact ScopeSet.parse_agree_iff hs ht
  · exact (ScopeSet.Parsed.toString_inj ⟨raw, hs⟩ ⟨raw', ht⟩).symm

/-- Two orders of the same scopes, and the refresh token of an exchange. -/
theorem stored_scopes_exchange :
    (∃ s t, ScopeSet.parse "openid  offline_access openid" = .ok s ∧
      ScopeSet.parse "offline_access openid" = .ok t ∧ ScopeSet.parse s.toString = .ok s ∧ s = t) ∧
    ∃ i : Issuance Sample.state, ∃ t ∈ Sample.exchanged.refreshTokens,
      t.scope = i.validated.scope.toString ∧ storedScope t.scope = .ok i.validated.scope := by
  obtain ⟨hround, hrun⟩ := stored_scopes
  have hs : ScopeSet.parse "openid  offline_access openid" =
      .ok (.ofList (ScopeSet.tokens "openid  offline_access openid")) :=
    ScopeSet.parse_eq_ok_iff.2 ⟨by decide +kernel, by decide +kernel, rfl⟩
  have ht : ScopeSet.parse "offline_access openid" =
      .ok (.ofList (ScopeSet.tokens "offline_access openid")) :=
    ScopeSet.parse_eq_ok_iff.2 ⟨by decide +kernel, by decide +kernel, rfl⟩
  obtain ⟨hprint, hagree⟩ := hround _ _ hs
  obtain ⟨i, -, hscope, hstored⟩ := (hrun _ _ _ Sample.run_exchanged).refreshTokens
    Sample.refreshToken List.mem_cons_self
  refine ⟨⟨_, _, hs, ht, hprint, (hagree _ _ ht).1.2 fun x => ?_⟩, i, _, List.mem_cons_self, hscope, hstored⟩
  have htokens : ScopeSet.tokens "openid  offline_access openid" = ["openid", "offline_access", "openid"] ∧
      ScopeSet.tokens "offline_access openid" = ["offline_access", "openid"] := by decide +kernel
  rw [htokens.1, htokens.2]
  simp only [List.mem_cons, List.not_mem_nil, or_false]
  tauto

end SharpOauth
