import SharpOauth.ConsentPage
import SharpOauth.SiteUrls
import SharpOauth.UrlSerializer

/-! # Redirects to registered URIs

A response goes back to a client by appending parameters to its registered redirect URI.  For a
parser and a serializer that follow the URL standard, the location that comes out is the URI with
a longer query: same scheme, host, port and path, no fragment, and the pairs of the URI followed
by the parameters, whatever text these hold (`redirectWithParams_faithful`).

A registered URI passed the rules, so the same holds for every redirect of a run
(`redirects_faithful`): the error of `redirectWithParams` never happens there. -/

namespace SharpOauth

open UrlStandard Authorization

/-! ### Appending to a URL -/

/-- The serializer follows the standard. -/
structure Crates.WritesStandard (cr : Crates) {r : Rules Host} (w : HostWriter r) : Prop where
  write : ∀ u : Record Host, (defaultPort u.scheme).isSome = true → u.host.isSome = true →
    cr.urlToString (Url.ofRecord u) = String.ofList (serialize w.hostText u)

/-- The pairs of the query of a URL. -/
def Url.queryPairs (u : Url) : List (String × String) := formParse (utf8 (u.query.getD ""))

/-- The result is a redirect to a URI with the parameters after its own. -/
structure FaithfulRedirect (cr : Crates) (uri : String) (params : List (String × String))
    (result : Except AppError String) : Prop where
  location : ∃ location u v, result = .ok location ∧ cr.parseUrl uri = some u ∧
    cr.parseUrl location = some v ∧ v.scheme = u.scheme ∧ v.host = u.host ∧ v.port = u.port ∧
    v.path = u.path ∧ v.fragment = none ∧ v.queryPairs = u.queryPairs ++ params

section

variable {cr : Crates} {r : Rules Host}

/-- A query that is extended stays a query. -/
theorem querySet_formAppend {query : Option (List Char)} (h : ∀ q, query = some q → ∀ c ∈ q,
    querySet c = false) (params : List (String × String)) :
    ∀ c ∈ (formAppend ((query.map String.ofList).getD "") params).toList, querySet c = false := by
  have hform (c : Char) (hc : FormChar c) : querySet c = false := by
    cases hc with
    | inl hc => exact querySet_escape (.inr hc)
    | inr hc =>
        have hall : ("*-._+%".toList.all fun c => !querySet c) = true := by decide
        simpa using List.all_eq_true.1 hall c hc
  intro c hc
  rcases mem_formAppend hc with hc | hc | rfl | rfl
  · cases query with
    | none => simp at hc
    | some q => exact h q rfl c (by simpa using hc)
  · exact hform c hc
  · decide
  · decide

/-- **A redirect keeps the URI and appends the parameters.** -/
theorem redirectWithParams_faithful (hcr : cr.FollowsStandard r) {w : HostWriter r}
    (hw : cr.WritesStandard w) {uri : String} {url : Url} (huri : AcceptableUri cr uri url)
    (params : List (String × String)) :
    FaithfulRedirect cr uri params (redirectWithParams cr uri params) := by
  obtain ⟨u, hu, rfl⟩ := Option.map_eq_some_iff.1 ((hcr.parse uri).symm.trans huri.parses)
  have hspecial : (defaultPort u.scheme).isSome = true := by
    have hweb : u.scheme = "https".toList ∨ u.scheme = "http".toList := by
      have hof : String.ofList u.scheme = "https" ∨ String.ofList u.scheme = "http" :=
        huri.scheme.imp_right And.left
      simpa [← String.toList_inj] using hof
    cases hweb with
    | inl hweb => rw [hweb]; decide
    | inr hweb => rw [hweb]; decide
  have hcanonical := canonical_of_parse hu hspecial
  have hfragment : u.fragment = none := Option.map_eq_none_iff.1 huri.noFragment
  generalize hquery : (formAppend ((Url.ofRecord u).query.getD "") params) = query
  have hextended : extendQueryPairs (Url.ofRecord u) params =
      Url.ofRecord { u with query := some query.toList } := by
    rw [extendQueryPairs, hquery]
    simp [Url.ofRecord]
  have hcanonical' : Canonical r { u with query := some query.toList } := by
    refine { hcanonical with query := fun q hq => ?_ }
    rw [← Option.some.inj hq, ← hquery]
    exact querySet_formAppend hcanonical.query params
  have hhost : u.host.isSome = true := by
    obtain ⟨-, host, -, hhost, -⟩ := hcanonical.host
    rw [hhost]
    rfl
  have hwrite := hw.write { u with query := some query.toList } hspecial hhost
  have hread : cr.parseUrl (cr.urlToString (extendQueryPairs (Url.ofRecord u) params)) =
      some (Url.ofRecord { u with query := some query.toList }) := by
    rw [hextended, hwrite, hcr.parse, String.toList_ofList, Rules.parse_serialize w hcanonical']
    rfl
  refine ⟨⟨_, _, _, ?_, huri.parses, hread, rfl, rfl, rfl, rfl, ?_, ?_⟩⟩
  · rw [redirectWithParams, huri.parses]
  · exact congrArg (Option.map String.ofList) hfragment
  · rw [Url.queryPairs, Url.queryPairs, ← formParse_extend, hquery]
    simp [Url.ofRecord]

/-- A URI that passed the rules is one of them. -/
theorem FaithfulRedirect.of_valid (hcr : cr.FollowsStandard r) {w : HostWriter r}
    (hw : cr.WritesStandard w) {uri : String}
    (h : Client.validateRedirectUriForRegistration cr uri = .ok ()) (params : List (String × String)) :
    FaithfulRedirect cr uri params (redirectWithParams cr uri params) := by
  obtain ⟨url, hurl⟩ := acceptable_of_valid h
  exact redirectWithParams_faithful hcr hw hurl params

end

/-! ### The redirects of a run -/

/-- The parameters of an error response. -/
def Authorization.ErrorRedirect.params (st : AppState) (e : ErrorRedirect) : List (String × String) :=
  [("error", e.error), ("error_description", e.description)] ++
    (e.state.map fun state => ("state", state)).toList ++ [("iss", st.issuer)]

theorem Authorization.ErrorRedirect.toUrl_eq (st : AppState) (e : ErrorRedirect) :
    e.toUrl st = redirectWithParams st.toCrates e.redirectUri (e.params st) := by
  unfold ErrorRedirect.toUrl ErrorRedirect.params
  cases e.state <;> rfl

/-- The parameters of a response with a code. -/
def codeParams (st : AppState) (d : Draws) (v : ValidatedRequest) : List (String × String) :=
  [("code", generateToken (d.secret 0)), ("state", v.state), ("iss", st.issuer)]

/-- The redirects of the authorization requests that the server checks with some tables. -/
structure FaithfulRedirects (st : AppState) (db : Db) : Prop where
  /-- A code of a validated request is not stored, or sent to the client. -/
  code : ∀ request faults v, ((validate request).serve faults db).1 = .ok v →
    ∀ d user session faults' db',
      (∃ e, ((issueCode st d v user session).serve faults' db').1 = .error (.database e)) ∨
      FaithfulRedirect st.toCrates v.redirectUri (codeParams st d v)
        ((issueCode st d v user session).serve faults' db').1
  /-- So is an error after the validation, -/
  refusal : ∀ request faults v, ((validate request).serve faults db).1 = .ok v →
    ∀ error description err, v.err error description = .redirect err →
      FaithfulRedirect st.toCrates v.redirectUri (err.params st) (err.toUrl st)
  /-- and an error of the validation that is redirected. -/
  invalid : ∀ request faults err, ((validate request).serve faults db).1 = .error (.redirect err) →
    FaithfulRedirect st.toCrates err.redirectUri (err.params st) (err.toUrl st)

section

variable {st : AppState} {es : List Event} {db : Db}

/-- An error is only redirected to a registered URI. -/
theorem redirectable_of_serve {faults : List Bool} {request : AuthorizationRequest}
    {err : ErrorRedirect} (h : ((validate request).serve faults db).1 = .error (.redirect err)) :
    ∃ client, Redirectable db request client err.redirectUri := by
  have hwp : (validate request).wp (true ∈ faults) (fun res _ => ∀ err, res = .error (.redirect err) →
      ∃ client, Redirectable db request client err.redirectUri) ⟨db, none⟩ := by
    rw [← Prog.bind_ret (validate request)]
    refine wp_validate (fun e _ => by rintro err ⟨⟩) (fun m _ => by rintro err ⟨⟩)
      (fun client err hr _ => ?_) fun v _ => by rintro err ⟨⟩
    rintro err' ⟨⟩
    exact ⟨client, hr⟩
  exact Prog.wp_serve (S := Sharp) (R := fun res _ => ∀ err, res = .error (AuthorizationError.redirect err) →
    ∃ client, Redirectable db request client err.redirectUri) _ faults db hwp err h

/-- A URI that a request may be redirected to passed the rules. -/
theorem Run.acceptable (run : Run st es db) {request : AuthorizationRequest} {client : OAuthClient}
    {uri : String} (h : Redirectable db request client uri) :
    ∃ url, AcceptableUri st.toCrates uri url :=
  (run.registryInv.rows client h.mem).uris uri h.registered

/-- A statement fails with an error of the database. -/
theorem serve_query_error {q : Stmt} {faults : List Bool} {e : AppError}
    (h : ((query q : Service AppError _).serve faults db).1 = .error e) : ∃ err, e = .database err := by
  have hrun (x : Except SqlError (Ret q)) (fs : List Bool) (c : Conn Sharp)
      (hx : ((Prog.ofExcept x : Service AppError _).run fs c).1 = .error e) : ∃ err, e = .database err := by
    cases x with
    | ok a => cases hx
    | error err => exact ⟨err, (Except.error.inj hx).symm⟩
  unfold query Handler.query at h
  rw [Prog.serve, Prog.run] at h
  exact hrun _ _ _ h

/-- A code is not stored, or the result is its redirect. -/
theorem issueCode_serve (d : Draws) (v : ValidatedRequest) (user : User) (session : Session)
    (faults : List Bool) (db : Db) :
    (∃ e, ((issueCode st d v user session).serve faults db).1 = .error (.database e)) ∨
      ((issueCode st d v user session).serve faults db).1 =
        redirectWithParams st.toCrates v.redirectUri (codeParams st d v) := by
  have hbind : issueCode st d v user session =
      (query (.codesInsert (newCode st.toCrates d v user session))).bind fun _ =>
        Prog.ofExcept (redirectWithParams st.toCrates v.redirectUri (codeParams st d v)) := rfl
  rw [hbind, Prog.serve_bind_ofExcept]
  cases hinsert : ((query (.codesInsert (newCode st.toCrates d v user session)) :
      Service AppError _).serve faults db).1 with
  | ok _ => exact .inr rfl
  | error e =>
      obtain ⟨err, rfl⟩ := serve_query_error hinsert
      exact .inl ⟨err, rfl⟩

/-- **Every redirect of a run keeps the registered URI and appends its parameters.** -/
theorem redirects_faithful {r : Rules Host} (hcr : st.FollowsStandard r) {w : HostWriter r}
    (hw : st.WritesStandard w) :
    (∀ uri, Client.validateRedirectUriForRegistration st.toCrates uri = .ok () → ∀ params,
      FaithfulRedirect st.toCrates uri params (redirectWithParams st.toCrates uri params)) ∧
    ∀ es db, Run st es db → FaithfulRedirects st db := by
  refine ⟨fun uri huri => FaithfulRedirect.of_valid hcr hw huri, fun es db run => ?_⟩
  have hfaithful (request : AuthorizationRequest) (client : OAuthClient) (uri : String)
      (h : Redirectable db request client uri) (params : List (String × String)) :
      FaithfulRedirect st.toCrates uri params (redirectWithParams st.toCrates uri params) := by
    obtain ⟨url, hurl⟩ := run.acceptable h
    exact redirectWithParams_faithful hcr hw hurl params
  refine ⟨fun request faults v hv d user session faults' db' => ?_,
    fun request faults v hv error description err herr => ?_, fun request faults err herr => ?_⟩
  · refine (issueCode_serve d v user session faults' db').imp_right fun hissue => ?_
    rw [hissue]
    exact hfaithful request v.client _ (validated_of_serve hv).redirectable _
  · cases herr
    rw [ErrorRedirect.toUrl_eq]
    exact hfaithful request v.client _ (validated_of_serve hv).redirectable _
  · obtain ⟨client, hclient⟩ := redirectable_of_serve herr
    rw [ErrorRedirect.toUrl_eq]
    exact hfaithful request client _ hclient _

end

namespace Sample

/-- The record of a URL. -/
def toRecord (u : Url) : Record Host :=
  { scheme := u.scheme.toList
    username := u.username.toList
    password := (u.password.getD "").toList
    host := u.host
    port := u.port
    path := u.path.toList
    query := u.query.map String.toList
    fragment := u.fragment.map String.toList }

theorem toRecord_ofRecord (u : Record Host) : toRecord (Url.ofRecord u) = u := by
  have hpart (part : Option (List Char)) : (part.map String.ofList).map String.toList = part := by
    cases part <;> simp
  have hpassword : ((Url.ofRecord u).password.getD "").toList = u.password := by
    unfold Url.ofRecord
    dsimp only
    split_ifs with h
    · simp [h]
    · simp
  cases u
  simp only [toRecord, hpassword]
  simp [Url.ofRecord, hpart]

/-- The text of a host that is a name. -/
def hostText : Host → List Char
  | .domain name => name.toList
  | _ => []

/-- A host is a name of letters and dots, in lower case. -/
theorem parseHost_name {text : List Char} {host : Host} (h : urlRules.parseHost text = some host) :
    (hostText host = text.map Char.toLower ∧ host = .domain (String.ofList (text.map Char.toLower))) ∧
      ∀ c ∈ hostText host, c.isAlpha = true ∨ c = '.' := by
  unfold urlRules at h
  dsimp only at h
  split_ifs at h with hall
  have htext : hostText host = text.map Char.toLower := by
    rw [← Option.some.inj h, hostText, String.toList_ofList]
  refine ⟨⟨htext, (Option.some.inj h).symm⟩, fun c hc => ?_⟩
  rw [htext] at hc
  obtain ⟨d, hd, rfl⟩ := List.mem_map.1 hc
  have hd := List.all_eq_true.1 hall d hd
  rw [Bool.or_eq_true, beq_iff_eq] at hd
  cases hd with
  | inl hd => exact .inl (by rw [Char.isAlpha_toLower_eq_isAlpha, hd])
  | inr hd =>
      rw [hd]
      exact .inr (by decide)

/-- These hosts are read back from their names. -/
def hostWriter : HostWriter urlRules where
  hostText := hostText
  hostText_shape := by
    intro text host hne h
    obtain ⟨⟨htext, -⟩, hchars⟩ := parseHost_name h
    refine ⟨fun c hc => ?_, .inl ⟨by simpa [htext] using hne, fun c hc => ?_⟩⟩
    · cases hchars c hc with
      | inl halpha =>
          have halphanum : c.isAlphanum = true := by simp [Char.isAlphanum, halpha]
          exact ⟨(isAlpha_char halpha).1, isEnd_escape (.inr halphanum),
            alphanum_ne halphanum (by decide)⟩
      | inr hdot =>
          rw [hdot]
          decide
    · cases hchars c hc with
      | inl halpha =>
          have halphanum : c.isAlphanum = true := by simp [Char.isAlphanum, halpha]
          have hnot : ":[]".toList.contains c = false := contains_escape (by decide) (.inr halphanum)
          simpa using hnot
      | inr hdot =>
          rw [hdot]
          decide
  parse_hostText := by
    intro text host _ h
    obtain ⟨⟨htext, hhost⟩, hchars⟩ := parseHost_name h
    have hall : ((text.map Char.toLower).all fun c => c.isAlpha || c == '.') = true := by
      rw [← htext, List.all_eq_true]
      exact fun c hc => by simpa using hchars c hc
    have hlower : (text.map Char.toLower).map Char.toLower = text.map Char.toLower := by
      simp [Function.comp_def]
    rw [htext, hhost, urlRules]
    simp only [hall, hlower, if_true]

/-- The deployment with the parser and the serializer of these URLs. -/
def urlState : AppState :=
  { state with
    parseUrl := urlCrates.parseUrl
    urlToString := fun u => String.ofList (serialize hostText (toRecord u)) }

theorem urlState_follows : urlState.FollowsStandard urlRules := ⟨fun _ => rfl⟩

theorem urlState_writes : urlState.WritesStandard hostWriter :=
  ⟨fun u _ _ => congrArg (fun u => String.ofList (serialize hostText u)) (toRecord_ofRecord u)⟩

/-- The tables after the first client is registered. -/
def urlRegistered : Db := (serve urlState (draws 2) [] createA Db.init).2

theorem run_urlRegistered : ∃ es, Run urlState es urlRegistered := by
  have hserved : Served 2 [] Db.init := ⟨.init, fun _ he => absurd he List.not_mem_nil⟩
  exact ⟨_, Run.init.step createA (draws 2) [] (hserved.fresh (by decide))⟩

end Sample

/-- A URI with a query of its own, and a request for a registered client. -/
theorem redirects_faithful_urlState :
    FaithfulRedirect Sample.urlState.toCrates "https://a.example/cb?tenant=7&" [("state", "x&y")]
      (redirectWithParams Sample.urlState.toCrates "https://a.example/cb?tenant=7&"
        [("state", "x&y")]) ∧
    FaithfulRedirects Sample.urlState Sample.urlRegistered ∧
    ((validate (Sample.request none)).serve [] Sample.urlRegistered).1.toOption.isSome = true := by
  obtain ⟨hregistered, hrun⟩ := redirects_faithful Sample.urlState_follows Sample.urlState_writes
  obtain ⟨es, run⟩ := Sample.run_urlRegistered
  exact ⟨hregistered _ (by decide +kernel) _, hrun es _ run, by decide +kernel⟩

/-- Nothing is merged with the query of the URI. -/
example : (redirectWithParams Sample.urlState.toCrates "https://a.example/cb?tenant=7&"
    [("state", "x&y")]).toOption = some "https://a.example/cb?tenant=7&&state=x%26y" := by
  decide +kernel

end SharpOauth
