import SharpOauth.TokenRaces
import SharpOauth.ClientAuthentication

/-! # The token and revocation endpoints, interleaved

A walk through the two endpoints under the contract of `TokenRaces`, with what each answer says about
the history of the database:

* tokens are answered to the request whose commit used the code, or rotated the refresh token;
* an answer that says that a code or token was used before, and a successful revocation, come after an
  `UPDATE` that has revoked every token of the family but those that were inserted since (`Swept`). -/

namespace SharpOauth

open Token

variable {ι : Type} {st : AppState} {d : ι → Draws} {i : ι} {w : World ι Sharp}
  {β : Type} {Q : Except AppError β → Tx Sharp → World ι Sharp → Prop}

/-! ### Exchanging a code -/

/-- The answer to a code that was used before. -/
def codeReplayed : AppError := .invalidGrant "authorization code has already been used"

/-- The answer to a token that was rotated before. -/
def tokenReplayed : AppError := .invalidGrant "refresh token has already been used"

/-- How the exchange of a code ends. -/
def CodeOutcome (st : AppState) (i : ι) (params : Params) :
    Except AppError TokenResponse → World ι Sharp → Prop
  | .ok _, w => ∃ code, params.get "code" = some code ∧ w.SetBy i (CodeUsed (st.hashToken code))
  | .error e, w => e = codeReplayed → ∃ code, params.get "code" = some code ∧
      ∃ c ∈ w.db .codes, AuthorizationCode.codeHash c = st.hashToken code ∧
        Swept i (fun t => t.authorizationCodeId = some (AuthorizationCode.id c)) w

theorem codeOutcome_tolerates (params : Params) :
    Contract.Tolerates fun r (_ : Tx Sharp) => CodeOutcome st i params r := fun _ _ _ h => by cases h

/-- A commit that claims a code. -/
theorem setBy_claim (hdb : Sharp.Distinct w.db) {record : AuthorizationCode} {now : Instant}
    (hmem : record ∈ w.db .codes) (hunused : record.usedAt = none) {log : List (Version Sharp)}
    (hlog : ⟨Table.codes, record.usedBy now⟩ ∈ log)
    (hcodes : ∀ c, (⟨Table.codes, c⟩ : Version Sharp) ∈ log → c = record.usedBy now) :
    (w.commit i log).SetBy i (CodeUsed record.codeHash) := by
  refine ⟨w.db, log, List.mem_cons_self, ?_, ?_⟩
  · rintro ⟨c, hc, hhash, hused⟩
    have heq : c = record := hdb.rows .codes c record hc hmem (by simp [clash, hhash])
    exact hused (heq ▸ hunused)
  · obtain ⟨c, hc, hc', -⟩ := exists_newest (s := w.db) hlog
    rw [hcodes c hc'] at hc
    exact ⟨_, hc, rfl, by simp [AuthorizationCode.usedBy]⟩

theorem signedTokens_error {client : OAuthClient} {userId : Uuid} {scope : ScopeSet}
    {authTime : Instant} {nonce : Option String} {d : Draws} {e : AppError}
    (h : signedTokens st d client userId scope authTime nonce = .error e) : ∃ m, e = .internal m := by
  have hinternal {x : Except String String} {e : AppError} (h : x.mapError .internal = .error e) :
      ∃ m, e = .internal m := by
    cases x with
    | ok a => cases h
    | error m =>
        cases h
        exact ⟨m, rfl⟩
  rcases Check.bind_eq_error.1 h with h | ⟨accessToken, -, h⟩
  · exact hinternal h
  · by_cases hopenid : scope.contains ScopeSet.openid = true
    · rw [if_pos hopenid] at h
      rcases Check.bind_eq_error.1 h with h | ⟨idToken, -, h⟩
      · cases hissue : IdToken.issue st (.new st.issuer userId client.clientId authTime nonce d.now) with
        | ok token =>
            rw [hissue] at h
            cases h
        | error e' =>
            rw [hissue] at h
            cases h
            exact hinternal hissue
      · cases h
    · rw [if_neg hopenid] at h
      cases h

theorem checkCodeBindings_ne_replayed {cr : Crates} {record : AuthorizationCode} {client : OAuthClient}
    {redirectUri codeVerifier : String} {now : Instant} {e : AppError}
    (h : checkCodeBindings cr record client redirectUri codeVerifier now = .error e) :
    e ≠ codeReplayed := by
  unfold checkCodeBindings at h
  split_ifs at h <;> cases h <;> simp [codeReplayed]

theorem storedScope_error {raw : String} {e : AppError} (h : storedScope raw = .error e) :
    ∃ m, e = .internal m := by
  unfold storedScope at h
  cases hparse : ScopeSet.parse raw with
  | ok scope =>
      rw [hparse] at h
      cases h
  | error e' =>
      rw [hparse] at h
      cases h
      exact ⟨_, rfl⟩

/-- **The exchange of a code.** -/
theorem exchangeAuthorizationCode_safe (client : OAuthClient) (params : Params) :
    (tokenContract st d).Safe i (fun r _ => CodeOutcome st i params r)
      (exchangeAuthorizationCode st (d i) client params) {} w := by
  have hQ : Contract.Tolerates fun r (_ : Tx Sharp) => CodeOutcome st i params r :=
    codeOutcome_tolerates params
  simp only [exchangeAuthorizationCode, Prog.bind_eq, Prog.pure_eq]
  refine Contract.safe_okOr (fun _ h => by cases h) fun code hcode => ?_
  refine Contract.safe_okOr (fun _ h => by cases h) fun redirectUri _ => ?_
  refine Contract.safe_okOr (fun _ h => by cases h) fun codeVerifier _ => ?_
  refine Contract.safe_begin hQ fun w _ => ?_
  refine codesClaim_safe hQ (fun w => ?_) fun record w hmem hhash hunused => ?_
  · refine select_safe hQ rfl rfl fun w _ _ => ?_
    cases hfind : (w.db .codes).find? fun r : AuthorizationCode => r.codeHash = st.hashToken code with
    | none => exact fun h => by simp [codeReplayed] at h
    | some used =>
      have hmem : used ∈ w.db .codes := List.mem_of_find?_eq_some hfind
      have hhash : used.codeHash = st.hashToken code := by simpa using List.find?_some hfind
      refine revoke_commit_safe (revokes_code used.id (d i).now) hQ rfl rfl
        fun w' hlater hswept _ => ?_
      obtain ⟨entries, hsince, -⟩ := hlater
      obtain ⟨c, hc, hlater⟩ := hsince.codes used hmem
      refine ⟨code, hcode, c, hc, hlater.codeHash.trans hhash, ?_⟩
      rw [hlater.id]
      exact hswept
  · dsimp only
    have hb : checkCodeBindings st.toCrates (record.usedBy (d i).now) client redirectUri codeVerifier
      (d i).now = checkCodeBindings st.toCrates record client redirectUri codeVerifier (d i).now := rfl
    rw [hb]
    cases hbindings : checkCodeBindings st.toCrates record client redirectUri codeVerifier (d i).now with
    | error e =>
        refine Contract.safe_commit hQ fun w' henv => ?_
        have hmem' : record ∈ w'.db .codes := (henv.locked .codes record List.mem_cons_self).2 hmem
        exact ⟨.claimed record hmem' hunused, fun h => absurd h (checkCodeBindings_ne_replayed hbindings)⟩
    | ok u =>
        refine Contract.safe_ofExcept (fun e he h => ?_) fun scope _ => ?_
        · obtain ⟨m, rfl⟩ := storedScope_error he
          cases h
        refine Contract.safe_ofExcept (fun e he h => ?_) fun response _ => ?_
        · obtain ⟨m, rfl⟩ := signedTokens_error he
          cases h
        split_ifs with hoffline
        · simp only [Refresh.issue, Prog.bind_eq, Prog.pure_eq, Prog.bind_assoc, Prog.ret_bind]
          refine tokensInsert_safe hQ rfl fun w' hkept hnew => ?_
          refine Contract.safe_commit hQ fun w'' henv => ?_
          have hmem' : record ∈ w''.db .codes := by
            refine (henv.locked .codes record ?_).2 ((hkept .codes record List.mem_cons_self).2 hmem)
            exact List.mem_cons_of_mem _ List.mem_cons_self
          have hnew' : ∀ t ∈ w''.db .refreshTokens, RefreshToken.id t ≠ (d i).uuid 2 := by
            intro t ht hid
            refine hnew t ((henv.locked .refreshTokens t ?_).1 ht) hid
            rw [show Sharp.key .refreshTokens t = .inl ((d i).uuid 2) from congrArg Sum.inl hid]
            exact List.mem_cons_self
          refine ⟨.redeemed client record hmem' hunused hnew', code, hcode, ?_⟩
          rw [← hhash]
          refine setBy_claim henv.distinct hmem' hunused List.mem_cons_self fun c hc => ?_
          rcases List.mem_cons.1 hc with heq | hc
          · cases heq
            rfl
          · cases List.mem_singleton.1 hc
        · rw [Prog.ret_bind]
          refine Contract.safe_commit hQ fun w' henv => ?_
          have hmem' : record ∈ w'.db .codes := (henv.locked .codes record List.mem_cons_self).2 hmem
          refine ⟨.claimed record hmem' hunused, code, hcode, ?_⟩
          rw [← hhash]
          refine setBy_claim henv.distinct hmem' hunused List.mem_cons_self fun c hc => ?_
          cases List.mem_singleton.1 hc
          rfl

/-! ### Exchanging a refresh token -/

/-- How the exchange of a refresh token ends. -/
def RefreshOutcome (st : AppState) (i : ι) (params : Params) :
    Except AppError TokenResponse → World ι Sharp → Prop
  | .ok _, w => ∃ raw, params.get "refresh_token" = some raw ∧
      w.SetBy i (TokenSpent (st.hashToken raw))
  | .error e, w => e = tokenReplayed → ∃ raw, params.get "refresh_token" = some raw ∧
      ∃ t ∈ w.db .refreshTokens, RefreshToken.tokenHash t = st.hashToken raw ∧
        Swept i (fun u => u.familyId = RefreshToken.familyId t) w

theorem refreshOutcome_tolerates (params : Params) :
    Contract.Tolerates fun r (_ : Tx Sharp) => RefreshOutcome st i params r := fun _ _ _ h => by cases h

/-- A commit that rotates a token. -/
theorem setBy_rotate (hdb : Sharp.Distinct w.db) {record : RefreshToken} {next : RefreshToken}
    (hmem : record ∈ w.db .refreshTokens) (hrevoked : record.revokedAt = none)
    (hlast : record.rotatedToId = none) :
    (w.commit i [⟨Table.refreshTokens, next⟩, ⟨Table.refreshTokens, record.rotatedTo next.id⟩]).SetBy i
      (TokenSpent record.tokenHash) := by
  refine ⟨w.db, _, List.mem_cons_self, ?_, record.rotatedTo next.id, ?_, rfl,
    .inl (by simp [RefreshToken.rotatedTo])⟩
  · rintro ⟨t, ht, hhash, hspent⟩
    obtain rfl : t = record := hdb.rows .refreshTokens t record ht hmem (by simp [clash, hhash])
    exact hspent.elim (fun h => h hlast) fun h => h hrevoked
  · exact mem_put_iff (S := Sharp) (v := ⟨Table.refreshTokens, record.rotatedTo next.id⟩)
      (t := Table.refreshTokens).2 (.inl rfl)

theorem narrowedScope_error {granted : ScopeSet} {requested : Option ScopeSet} {e : AppError}
    (h : narrowedScope granted requested = .error e) : e ≠ tokenReplayed := by
  unfold narrowedScope at h
  cases requested with
  | none => cases h
  | some requested =>
      dsimp only at h
      split_ifs at h
      cases h
      simp [tokenReplayed]

theorem requestedScope_error {raw : Option String} {e : AppError}
    (h : requestedScope raw = .error e) : e ≠ tokenReplayed := by
  unfold requestedScope at h
  cases raw with
  | none => cases h
  | some raw =>
      dsimp only at h
      cases hparse : ScopeSet.parse raw with
      | ok scope =>
          rw [hparse] at h
          cases h
      | error e' =>
          rw [hparse] at h
          cases h
          simp [tokenReplayed]

/-- **The exchange of a refresh token.** -/
theorem exchangeRefreshToken_safe (client : OAuthClient) (params : Params) :
    (tokenContract st d).Safe i (fun r _ => RefreshOutcome st i params r)
      (exchangeRefreshToken st (d i) client params) {} w := by
  have hQ : Contract.Tolerates fun r (_ : Tx Sharp) => RefreshOutcome st i params r :=
    refreshOutcome_tolerates params
  simp only [exchangeRefreshToken, Prog.bind_eq, Prog.pure_eq]
  refine Contract.safe_okOr (fun _ h => by cases h) fun raw hraw => ?_
  refine Contract.safe_ofExcept (fun e he h => absurd h (requestedScope_error he)) fun requested _ => ?_
  refine Contract.safe_begin hQ fun w _ => ?_
  refine tokensLock_safe hQ (fun w h => ?_) fun record w hmem hhash => ?_
  · simp [tokenReplayed] at h
  · rw [Prog.okOr_some, Prog.ret_bind]
    cases hok : record.checkUsable client.id (d i).now with
    | error u =>
        cases u with
        | alreadyRotated =>
            refine revoke_commit_safe (revokes_family record.familyId (d i).now) hQ rfl rfl
              fun w' hlater hswept _ => ?_
            obtain ⟨entries, hsince, -⟩ := hlater
            obtain ⟨t, ht, hlater⟩ := hsince.tokens record hmem
            refine ⟨raw, hraw, t, ht, hlater.tokenHash.trans hhash, ?_⟩
            rw [hlater.familyId]
            exact hswept
        | wrongClient => exact fun h => by simp [tokenReplayed] at h
        | revoked => exact fun h => by simp [tokenReplayed] at h
        | expired => exact fun h => by simp [tokenReplayed] at h
    | ok u =>
        dsimp only
        refine Contract.safe_ofExcept (fun e he h => ?_) fun granted _ => ?_
        · obtain ⟨m, rfl⟩ := storedScope_error he
          cases h
        refine Contract.safe_ofExcept (fun e he h => absurd h (narrowedScope_error he)) fun scope _ => ?_
        refine Contract.safe_ofExcept (fun e he h => ?_) fun response _ => ?_
        · obtain ⟨m, rfl⟩ := signedTokens_error he
          cases h
        simp only [Refresh.issue, Prog.bind_eq, Prog.pure_eq, Prog.bind_assoc, Prog.ret_bind]
        refine tokensInsert_safe hQ rfl fun w₁ hkept₁ hnew₁ => ?_
        have hmem₁ := (hkept₁ .refreshTokens record List.mem_cons_self).2 hmem
        have hid : record.id ≠ (nextToken st (d i) client record).id := hnew₁ record hmem₁
        refine tokensMarkRotated_safe hQ rfl hmem₁ (List.mem_cons_of_mem _ List.mem_cons_self)
          (fun v hv => ?_) fun w₂ hkept₂ => ?_
        · obtain rfl := List.mem_singleton.1 hv
          exact fun h => hid (Sum.inl.inj (congrArg Prod.snd h)).symm
        · refine Contract.safe_commit hQ fun w₃ henv => ?_
          have hmem₃ : record ∈ w₃.db .refreshTokens := by
            refine (henv.locked .refreshTokens record List.mem_cons_self).2 ?_
            exact (hkept₂ .refreshTokens record (List.mem_cons_of_mem _ List.mem_cons_self)).2 hmem₁
          have hnew₃ : ∀ t ∈ w₃.db .refreshTokens, RefreshToken.id t ≠ (d i).uuid 2 := by
            intro t ht heq
            have hkey : key .refreshTokens t = .inl ((d i).uuid 2) := congrArg Sum.inl heq
            refine hnew₁ t ((hkept₂ .refreshTokens t ?_).1 ((henv.locked .refreshTokens t ?_).1 ht)) heq
            · rw [hkey]
              exact List.mem_cons_self
            · show (Table.refreshTokens, key .refreshTokens t) ∈ _
              rw [hkey]
              exact List.mem_cons_of_mem _ List.mem_cons_self
          obtain ⟨-, hrevoked, hlast, -⟩ := checkUsable_ok hok
          refine ⟨.refreshed client record hmem₃ hok hnew₃, raw, hraw, ?_⟩
          rw [← hhash]
          exact setBy_rotate henv.distinct hmem₃ hrevoked hlast

/-! ### The endpoints -/

theorem authenticate_safe (hQ : Contract.Tolerates Q) (hinvalid : ∀ w, Q (.error .invalidClient) {} w)
    {cr : Crates} {credentials : Client.ClientCredentials}
    {f : OAuthClient → Service AppError β}
    (h : ∀ client w', Later i w w' → (tokenContract st d).Safe i Q (f client) {} w') :
    (tokenContract st d).Safe i Q (Prog.bind (Client.authenticate cr credentials) f) {} w := by
  simp only [Client.authenticate, Prog.bind_eq, Prog.pure_eq, Prog.bind_assoc]
  refine select_safe hQ rfl rfl fun w₁ hlater _ => ?_
  split
  · split_ifs
    · exact h _ _ (hlater.trans (.note (.inr (by rintro _ ⟨⟩)) w₁ _))
    · exact hinvalid _
  · exact hinvalid _

/-- An error about the credentials is no error about the grant. -/
theorem extractCredentials_error {header : Option String} {params : Params} {e : AppError}
    (h : Client.extractCredentials header params = .error e) :
    e = .invalidClient ∨ ∃ m, e = .invalidRequest m := by
  by_cases hheader : Client.HasBasic header
  · obtain ⟨header, rfl, hscheme⟩ := hheader
    cases hbasic : Client.parseBasicAuthorization header with
    | none =>
        rw [Client.extractCredentials_malformed hscheme hbasic] at h
        cases h
        exact .inl rfl
    | some p =>
        unfold Client.extractCredentials at h
        simp only [hscheme, if_true, hbasic, bind, Except.bind] at h
        cases hsecret : params.get "client_secret" with
        | some s =>
            rw [hsecret] at h
            cases h
            exact .inr ⟨_, rfl⟩
        | none =>
            rw [hsecret] at h
            dsimp only at h
            split_ifs at h
            cases h
            exact .inl rfl
  · rw [Client.extractCredentials_form hheader] at h
    cases hid : params.get "client_id" with
    | none =>
        rw [hid] at h
        cases h
        exact .inl rfl
    | some clientId =>
        rw [hid] at h
        cases h

/-- How a token request ends. -/
def TokenOutcome (st : AppState) (i : ι) (pairs : List (String × String))
    (r : Except AppError TokenResponse) (w : World ι Sharp) : Prop :=
  ∀ params, Params.fromPairs pairs = .ok params →
    (params.get "grant_type" = some "authorization_code" → CodeOutcome st i params r w) ∧
      (params.get "grant_type" = some "refresh_token" → RefreshOutcome st i params r w)

theorem tokenOutcome_error {pairs : List (String × String)} {e : AppError}
    (h : ∀ m, e ≠ .invalidGrant m) : TokenOutcome st i pairs (.error e) w :=
  fun _ _ => ⟨fun _ h' => absurd h' (h _), fun _ h' => absurd h' (h _)⟩

/-- **The token endpoint.** -/
theorem Token.handle_safe (header : Option String) (pairs : List (String × String)) :
    (tokenContract st d).Safe i (fun r _ => TokenOutcome st i pairs r) (Token.handle st (d i) header pairs) {} w := by
  have hQ : Contract.Tolerates fun r (_ : Tx Sharp) => TokenOutcome st i pairs r :=
    fun _ _ _ => tokenOutcome_error fun _ h => by cases h
  refine Contract.safe_ofExcept (fun e he params hparams => ?_) fun params hparams => ?_
  · rw [hparams] at he
    cases he
  refine Contract.safe_ofExcept (fun e he => tokenOutcome_error fun m h => ?_) fun grantType hgrant => ?_
  · subst h
    unfold GrantType.parse at he
    split at he
    · split_ifs at he
      cases he
    · cases he
  refine Contract.safe_ofExcept (fun e he => tokenOutcome_error fun m h => ?_) fun credentials _ => ?_
  · rcases extractCredentials_error he with rfl | ⟨m', rfl⟩ <;> cases h
  refine authenticate_safe hQ (fun w => tokenOutcome_error fun _ h => by cases h) fun client w' _ => ?_
  have hgrant := GrantType.parse_eq_ok.1 hgrant
  have hok : Params.fromPairs pairs = .ok params := mapError_eq_ok.1 hparams
  cases grantType with
  | authorizationCode =>
      refine Contract.safe_mono (fun r tx w h params' hparams' => ?_) _
        (exchangeAuthorizationCode_safe client params)
      obtain rfl := Except.ok.inj (hok.symm.trans hparams')
      exact ⟨fun _ => h, fun hg => absurd (hgrant.symm.trans hg) (by simp)⟩
  | refreshToken =>
      refine Contract.safe_mono (fun r tx w h params' hparams' => ?_) _
        (exchangeRefreshToken_safe client params)
      obtain rfl := Except.ok.inj (hok.symm.trans hparams')
      exact ⟨fun hg => absurd (hgrant.symm.trans hg) (by simp), fun _ => h⟩

/-- How a revocation request ends: its lookup of the token decides what it revokes. -/
def RevokeOutcome (st : AppState) (i : ι) (pairs : List (String × String)) :
    Except AppError Unit → World ι Sharp → Prop
  | .ok _, w => ∀ params token, Params.fromPairs pairs = .ok params → params.get "token" = some token →
      ∀ s, Entry.snapshot i (Stmt.tokensFindByHash (st.hashToken token)) s ∈ w.trace →
        ∀ t ∈ s .refreshTokens, RefreshToken.tokenHash t = st.hashToken token →
          Swept i (fun u => u.familyId = RefreshToken.familyId t) w ∧
            ∃ u ∈ w.db .refreshTokens, RefreshToken.familyId u = RefreshToken.familyId t
  | .error _, _ => True

/-- **The revocation endpoint.** -/
theorem Revocation.handle_safe (hfirst : NoLookup i w.trace) (header : Option String)
    (pairs : List (String × String)) :
    (tokenContract st d).Safe i (fun r _ => RevokeOutcome st i pairs r) (Revocation.handle st (d i) header pairs)
      {} w := by
  have hQ : Contract.Tolerates fun r (_ : Tx Sharp) => RevokeOutcome st i pairs r := fun _ _ _ => trivial
  refine Contract.safe_ofExcept (fun _ _ => trivial) fun params hparams => ?_
  refine Contract.safe_ofExcept (fun _ _ => trivial) fun credentials _ => ?_
  refine authenticate_safe hQ (fun _ => trivial) fun client w₁ hlater₁ => ?_
  refine Contract.safe_okOr (fun _ => trivial) fun token htoken => ?_
  refine select_safe hQ rfl rfl fun w₂ hlater₂ hdb => ?_
  have hok : Params.fromPairs pairs = .ok params := mapError_eq_ok.1 hparams
  -- The only lookup of the thread is the one in the world `w₂`.
  have honly {w' : World ι Sharp}
      (hlater : Later i (w₂.note i (.tokensFindByHash (st.hashToken token)) w₂.db) w') {s : Db}
      (hmem : Entry.snapshot i (Stmt.tokensFindByHash (st.hashToken token)) s ∈ w'.trace) : s = w₂.db := by
    rcases List.mem_cons.1 (hlater.lookups hmem) with heq | hmem
    · cases heq
      rfl
    · exact absurd ((hlater₁.trans hlater₂).lookups hmem) (hfirst _ s)
  cases hfind : (w₂.db .refreshTokens).find? fun r : RefreshToken => r.tokenHash = st.hashToken token with
  | none =>
      intro params' token' hparams' htoken' s hs t ht hhash
      obtain rfl := Except.ok.inj (hok.symm.trans hparams')
      obtain rfl := Option.some.inj (htoken.symm.trans htoken')
      obtain rfl := honly (.refl i _) hs
      simpa [hhash] using List.find?_eq_none.1 hfind t ht
  | some record =>
      have hmem : record ∈ w₂.db .refreshTokens := List.mem_of_find?_eq_some hfind
      have hrecord : record.tokenHash = st.hashToken token := by simpa using List.find?_some hfind
      dsimp only
      split_ifs with hclient
      · trivial
      · refine revoke_query (revokes_family record.familyId (d i).now) hQ rfl
          fun w₃ w₄ tx r hlater₃ hsweep hdb' => .auto hsweep.explicit ?_
        refine hsweep.commits (revokes_family record.familyId (d i).now) hdb' fun w₅ hlater₅ hswept => ?_
        intro params' token' hparams' htoken' s hs t ht hhash
        obtain rfl := Except.ok.inj (hok.symm.trans hparams')
        obtain rfl := Option.some.inj (htoken.symm.trans htoken')
        obtain rfl := honly (hlater₃.trans hlater₅) hs
        have heq : t = record := hdb.rows .refreshTokens t record ht hmem
          (by simp [clash, hhash, hrecord])
        obtain ⟨entries, hsince, -⟩ := hlater₃.trans hlater₅
        obtain ⟨u, hu, hlater⟩ := hsince.tokens record hmem
        rw [heq]
        exact ⟨hswept, u, hu, hlater.familyId⟩

/-- What a response to a request says. -/
def Outcome (st : AppState) (i : ι) (req : Request) (r : Except Empty Response) (w : World ι Sharp) :
    Prop :=
  (∀ headers pairs, req = .token headers (some pairs) →
    ∃ r', r = .ok (tokenResponse r') ∧ TokenOutcome st i pairs r' w) ∧
  ∀ headers pairs, req = .revoke headers (some pairs) →
    ∃ r', r = .ok (revokeResponse r') ∧ RevokeOutcome st i pairs r' w

/-- **Every request meets the contract.** -/
theorem respond_safe (hfirst : NoLookup i w.trace) (req : Request) :
    (tokenContract st d).Safe i (fun r _ => Outcome st i req r) (respond st (d i) req) {} w := by
  by_cases hreq : req.TokenRequest
  · cases hreq with
    | token headers pairs =>
        show (tokenContract st d).Safe i _ (token st (d i) headers (some pairs)) {} w
        rw [token_eq, Contract.safe_bind, Contract.safe_attempt]
        refine Contract.safe_mono (fun r tx w h => ⟨fun headers' pairs' heq => ?_, fun _ _ heq => ?_⟩) _
          (Token.handle_safe _ pairs)
        · cases heq
          exact ⟨r, rfl, h⟩
        · cases heq
    | revoke headers pairs =>
        show (tokenContract st d).Safe i _ (revoke st (d i) headers (some pairs)) {} w
        rw [revoke_eq, Contract.safe_bind, Contract.safe_attempt]
        refine Contract.safe_mono (fun r tx w h => ⟨fun _ _ heq => ?_, fun headers' pairs' heq => ?_⟩) _
          (Revocation.handle_safe hfirst _ pairs)
        · cases heq
        · cases heq
          exact ⟨r, rfl, h⟩
  · have hpermits : (tokenContract st d).Permits i Quiet :=
      ⟨fun w log h => .quiet log h, fun _ _ _ hrows h => h.stable hrows⟩
    have honly : (respond st (d i) req).Only (Sharp.Writes Quiet) :=
      Prog.only_mono (fun _ h => h.writes) (respond_quiet st (d i) hreq)
    refine Contract.safe_mono (fun r tx w _ => ⟨?_, ?_⟩) _
      (Contract.safe_of_only sharp_keyed hpermits honly fun _ hv => absurd hv List.not_mem_nil)
    · rintro headers pairs rfl
      exact absurd (.token headers pairs) hreq
    · rintro headers pairs rfl
      exact absurd (.revoke headers pairs) hreq

end SharpOauth
