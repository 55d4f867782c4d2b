import SharpOauth.AuthorizationSafety
import SharpOauth.Cookies
import SharpOauth.UrlStandard

/-! # URLs of the server itself

The issuer is checked as a parsed URL, but it is the text that is kept: `secureCookies` looks at
its first characters, and `AppState.url` appends paths to it.  Both follow the URL that was parsed
for exactly the texts of `IssuerLiteral` (`issuer_reliable`): an `https` issuer has to start with
`https://` as it stands, and must not end in blanks right after its host.

A redirect after a sign-in goes to a path that keeps the scheme, host and port of any page that it
is resolved against (`return_stays`). -/

namespace SharpOauth

open UrlStandard

/-! ### The URL parser of the server -/

/-- The fields of a parsed URL. -/
def Url.ofRecord (u : Record Host) : Url :=
  { scheme := String.ofList u.scheme
    username := String.ofList u.username
    password := if u.password = [] then none else some (String.ofList u.password)
    host := u.host
    port := u.port
    path := String.ofList u.path
    query := u.query.map String.ofList
    fragment := u.fragment.map String.ofList }

/-- The parser follows the standard. -/
structure Crates.FollowsStandard (cr : Crates) (r : Rules Host) : Prop where
  parse : ∀ text, cr.parseUrl text = (r.parse text.toList).map Url.ofRecord

/-! ### The issuer -/

namespace Config

/-- Validate `ISSUER_URL` and strip a trailing slash. -/
def normalizeIssuer (cr : Crates) (raw : String) : Except String String :=
  match cr.parseUrl raw with
  | none => .error "ISSUER_URL must be an absolute URL"
  | some url =>
      if url.query.isSome ∨ url.fragment.isSome then
        .error "ISSUER_URL must not contain a query string or fragment"
      else if url.scheme = "https" ∨ url.scheme = "http" ∧ Client.isLoopbackHost url then
        .ok (String.ofList (raw.toList.rdropWhile (· == '/')))
      else .error "ISSUER_URL must use https (http is only allowed for localhost)"

/-- An absolute URL for a path on this server. -/
def url (issuer path : String) : String := issuer ++ path

end Config

/-- The state of a server with an issuer does what the URL of the issuer says. -/
structure IssuerReliable (cr : Crates) (raw issuer : String) : Prop where
  /-- Cookies are secure exactly if the URL is an `https` URL. -/
  secure : ∀ st : AppState, st.issuer = issuer →
    (st.secureCookies = true ↔ ∃ u, cr.parseUrl raw = some u ∧ u.scheme = "https")
  /-- The URL of a path has the scheme, host and port of the URL. -/
  url : ∀ path, ['/'].isPrefixOf path.toList = true → ∃ u v, cr.parseUrl raw = some u ∧
    cr.parseUrl (Config.url issuer path) = some v ∧ v.scheme = u.scheme ∧ v.host = u.host ∧
    v.port = u.port
  /-- Every cookie of an `https` deployment has the `Secure` attribute. -/
  cookies : ∀ st : AppState, st.issuer = issuer →
    (∃ u, cr.parseUrl raw = some u ∧ u.scheme = "https") →
    ∀ d faults req db, ∀ header ∈ (serve st d faults req db).1.setCookie,
      "; Secure".toList <:+ header.toList

/-- The text is the URL that it stands for, as far as the server looks at it. -/
structure IssuerLiteral (raw : String) : Prop where
  scheme : "https://".toList <+: raw.toList ∨
    (splitScheme (prepare raw.toList)).map Prod.fst = some "http".toList
  /-- Nothing that was stripped gets into the authority. -/
  authority : residue raw.toList = [] ∨
    ∀ p ∈ splitScheme (prepare raw.toList), Closed p.2

/-- Every `Set-Cookie` header is made by `CookieManager.set`. -/
theorem serve_setCookie (st : AppState) (d : Draws) (faults : List Bool) (req : Request) (db : Db) :
    ∀ header ∈ (serve st d faults req db).1.setCookie, ∃ name value maxAge,
      header = CookieManager.set name value maxAge st.secureCookies := by
  have hregular : (serve st d faults req db).1.Regular st d (req.headers?.getD ⟨none, []⟩) := by
    have hheaders : ∀ headers', req.headers? = some headers' →
        headers' = req.headers?.getD ⟨none, []⟩ := by
      intro headers' h
      rw [h]
      rfl
    exact (serve_shape faults db hheaders).elim .inl And.right
  intro header hheader
  generalize (serve st d faults req db).1 = response at hregular hheader
  rcases hregular with hshape | hsession
  · cases hshape with
    | plain status body h => exact absurd hheader List.not_mem_nil
    | form status page h =>
        have hcsrf : header ∈ (formToken st d (req.headers?.getD ⟨none, []⟩)).setCookie.toList := hheader
        unfold formToken Csrf.issue at hcsrf
        split at hcsrf
        · exact absurd hcsrf List.not_mem_nil
        · exact ⟨_, _, _, List.mem_singleton.1 hcsrf⟩
  · cases hsession with
    | intro location value maxAge => exact ⟨_, _, _, List.mem_singleton.1 hheader⟩

/-! ### What an accepted issuer is -/

section issuer

variable {cr : Crates} {r : Rules Host} {raw issuer : String}

/-- What is known of an accepted issuer. -/
structure AcceptedIssuer (cr : Crates) (r : Rules Host) (raw issuer : String) (scheme rest : List Char)
    (u : Record Host) : Prop where
  parsed : cr.parseUrl raw = some (Url.ofRecord u)
  split : splitScheme (prepare raw.toList) = some (scheme, rest)
  web : scheme = "https".toList ∨ scheme = "http".toList
  special : (defaultPort scheme).isSome = true
  record : r.parseSpecial scheme rest = some u
  recordScheme : u.scheme = scheme
  stored : issuer = String.ofList (trimSlashes raw.toList)

theorem acceptedIssuer_of_normalize (hcr : cr.FollowsStandard r)
    (h : Config.normalizeIssuer cr raw = .ok issuer) :
    ∃ scheme rest u, AcceptedIssuer cr r raw issuer scheme rest u := by
  unfold Config.normalizeIssuer at h
  cases hurl : cr.parseUrl raw with
  | none =>
      rw [hurl] at h
      cases h
  | some url =>
      rw [hurl] at h
      dsimp only at h
      split_ifs at h with hquery hscheme
      obtain ⟨u, hu, rfl⟩ := Option.map_eq_some_iff.1 ((hcr.parse raw).symm.trans hurl)
      have hweb : u.scheme = "https".toList ∨ u.scheme = "http".toList := by
        have hof : String.ofList u.scheme = "https" ∨ String.ofList u.scheme = "http" :=
          hscheme.imp_right And.left
        simpa [← String.toList_inj] using hof
      have hspecial : (defaultPort u.scheme).isSome = true := by
        rcases hweb with hweb | hweb <;> rw [hweb] <;> decide
      obtain ⟨rest, hsplit, hrecord⟩ := r.parse_special hu hspecial
      exact ⟨_, _, _, hurl, hsplit, hweb, hspecial, hrecord, rfl, (Except.ok.inj h).symm⟩

theorem AcceptedIssuer.toList {scheme rest : List Char} {u : Record Host}
    (h : AcceptedIssuer cr r raw issuer scheme rest u) : issuer.toList = trimSlashes raw.toList := by
  rw [h.stored, String.toList_ofList]

theorem AcceptedIssuer.isHttps {scheme rest : List Char} {u : Record Host}
    (h : AcceptedIssuer cr r raw issuer scheme rest u) :
    (∃ url, cr.parseUrl raw = some url ∧ url.scheme = "https") ↔ scheme = "https".toList := by
  have hscheme : (Url.ofRecord u).scheme = String.ofList scheme :=
    congrArg String.ofList h.recordScheme
  constructor
  · rintro ⟨url, hurl, hhttps⟩
    rw [h.parsed] at hurl
    cases hurl
    rw [hscheme] at hhttps
    rw [← hhttps, String.toList_ofList]
  · rintro rfl
    exact ⟨_, h.parsed, hscheme.trans (by simp)⟩

theorem https_toList : "https://".toList = "https".toList ++ ':' :: ['/', '/'] := by simp

/-- A text that starts with `https://` has the scheme. -/
theorem splitScheme_literal (tail : List Char) : splitScheme (prepare ("https://".toList ++ tail)) =
    some ("https".toList, '/' :: '/' :: clean (tail.rdropWhile UrlStandard.isBlank)) := by
  rw [prepare_of_start (by simp) (by simp [UrlStandard.isBlank]), splitScheme_eq_some]
  exact ⟨"https".toList, by simp, by simp, by simp, by simp [isSchemeChar]⟩

/-- The first characters of an `https` issuer are those of the text. -/
theorem AcceptedIssuer.literal_iff {rest : List Char} {u : Record Host}
    (h : AcceptedIssuer cr r raw issuer "https".toList rest u) :
    "https://".toList <+: issuer.toList ↔ "https://".toList <+: raw.toList := by
  rw [h.toList]
  constructor
  · exact fun hprefix => hprefix.trans (List.rdropWhile_prefix _ _)
  · rintro ⟨tail, htail⟩
    have hrest : rest = '/' :: '/' :: clean (tail.rdropWhile UrlStandard.isBlank) := by
      have hsplit := h.split
      rw [← htail, splitScheme_literal] at hsplit
      exact (Prod.mk.inj (Option.some.inj hsplit)).2.symm
    -- The authority is not among the slashes that are removed.
    have hauthority : ∃ c ∈ tail, (c == '/') = false := by
      obtain ⟨slashes, authority, after, a, hparts, -, hne, hend, -⟩ := parts_of_parseSpecial h.record
      obtain ⟨c, more, rfl⟩ := List.exists_cons_of_ne_nil hne
      have hslash : c ≠ '/' := by
        rintro rfl
        exact absurd (hend _ List.mem_cons_self) (by decide)
      have hmem : c ∈ rest := by
        rw [hparts]
        simp
      rw [hrest] at hmem
      have hmem : c ∈ clean (tail.rdropWhile UrlStandard.isBlank) := by
        simpa [hslash] using hmem
      exact ⟨c, (List.rdropWhile_prefix _ _).subset (List.mem_filter.1 hmem).1, by simpa using hslash⟩
    rw [trimSlashes, ← htail, rdropWhile_append hauthority]
    exact List.prefix_append _ _

theorem secureCookies_iff {st : AppState} (hst : st.issuer = issuer) :
    st.secureCookies = true ↔ "https://".toList <+: issuer.toList := by
  rw [AppState.secureCookies, hst]
  exact String.startsWith_string_iff

/-- The cookies are those of the URL. -/
theorem AcceptedIssuer.secure_iff {scheme rest : List Char} {u : Record Host}
    (h : AcceptedIssuer cr r raw issuer scheme rest u) {st : AppState} (hst : st.issuer = issuer) :
    (st.secureCookies = true ↔ ∃ url, cr.parseUrl raw = some url ∧ url.scheme = "https") ↔
      "https://".toList <+: raw.toList ∨
        (splitScheme (prepare raw.toList)).map Prod.fst = some "http".toList := by
  have hsplit : (splitScheme (prepare raw.toList)).map Prod.fst = some scheme := by rw [h.split]; rfl
  have hne : "https".toList ≠ "http".toList := by simp
  rw [h.isHttps, secureCookies_iff hst, hsplit, Option.some_inj]
  rcases h.web with rfl | rfl
  · rw [h.literal_iff]
    exact ⟨fun hiff => .inl (hiff.2 rfl), fun hcond =>
      ⟨fun _ => rfl, fun _ => hcond.resolve_right hne⟩⟩
  · have hnot : ¬"https://".toList <+: issuer.toList := by
      intro hprefix
      rw [h.toList] at hprefix
      obtain ⟨tail, htail⟩ := hprefix.trans (List.rdropWhile_prefix _ _)
      have hscheme := h.split
      rw [← htail, splitScheme_literal] at hscheme
      exact hne (Prod.mk.inj (Option.some.inj hscheme)).1
    exact ⟨fun _ => .inr rfl, fun _ => iff_of_false hnot hne.symm⟩

theorem url_toList {path : String} (hstored : issuer.toList = trimSlashes raw.toList)
    (hpath : ['/'].isPrefixOf path.toList = true) :
    ∃ tail, (Config.url issuer path).toList = trimSlashes raw.toList ++ '/' :: tail := by
  obtain ⟨tail, htail⟩ := List.isPrefixOf_iff_prefix.1 hpath
  refine ⟨tail, ?_⟩
  rw [Config.url, String.toList_append, hstored, ← htail, List.singleton_append]

/-- **The server follows the scheme, host and port of its issuer exactly if the text of the issuer
is literal.** -/
theorem issuer_reliable (hcr : cr.FollowsStandard r)
    (h : Config.normalizeIssuer cr raw = .ok issuer) :
    IssuerReliable cr raw issuer ↔ IssuerLiteral raw := by
  obtain ⟨scheme, rest, u, ha⟩ := acceptedIssuer_of_normalize hcr h
  have hclosed : (∀ p ∈ splitScheme (prepare raw.toList), Closed p.2) ↔ Closed rest := by
    rw [ha.split]
    simp
  constructor
  · intro hrel
    let st : AppState := { cr with issuer, sign := fun _ _ => .error "", dummyPasswordHash := "" }
    have hst : st.issuer = issuer := rfl
    have hscheme := (ha.secure_iff hst).1 (hrel.secure st hst)
    refine ⟨hscheme, ?_⟩
    rw [hclosed]
    by_contra hnot
    have hroot : ['/'].isPrefixOf "/".toList = true := by simp
    obtain ⟨u', v, -, hv, -⟩ := hrel.url "/" hroot
    obtain ⟨tail, htail⟩ := url_toList ha.toList hroot
    rw [hcr.parse, htail, (r.parse_trimSlashes ha.split ha.special ha.record tail).2 hnot] at hv
    cases hv
  · intro hlit
    have hauthority := hlit.authority
    rw [hclosed] at hauthority
    refine ⟨fun st hst => (ha.secure_iff hst).2 hlit.scheme, fun path hpath => ?_,
      fun st hst hhttps d faults req db header hheader => ?_⟩
    · obtain ⟨tail, htail⟩ := url_toList ha.toList hpath
      obtain ⟨v, hv, hscheme, hhost, hport⟩ :=
        (r.parse_trimSlashes ha.split ha.special ha.record tail).1 hauthority
      refine ⟨Url.ofRecord u, Url.ofRecord v, ha.parsed, ?_, congrArg String.ofList hscheme, hhost,
        hport⟩
      rw [hcr.parse, htail, hv]
      rfl
    · obtain ⟨name, value, maxAge, rfl⟩ := serve_setCookie st d faults req db header hheader
      rw [((ha.secure_iff hst).2 hlit.scheme).2 hhttps]
      unfold CookieManager.set
      rw [if_pos rfl, String.toList_append]
      exact List.suffix_append _ _

end issuer

namespace Sample

/-- The path percent-encode set of the standard. -/
def pathSet (c : Char) : Bool := controlSet c || " \"#<>?^`\x7b\x7d".toList.contains c

/-- The rules for hosts that are names of letters. -/
def urlRules : Rules Host where
  parseHost text :=
    if text.all fun c => c.isAlpha || c == '.' then
      some (.domain (String.ofList (text.map Char.toLower)))
    else none
  parseOther _ _ := none
  pathSet := pathSet
  host_clean := by
    intro text host h c hc
    split_ifs at h with hall
    have hchar := List.all_eq_true.1 hall c hc
    rcases (Bool.or_eq_true _ _).mp hchar with halpha | hdot
    · exact (isAlpha_char halpha).1
    · rw [beq_iff_eq.1 hdot]
      decide
  other_scheme := by
    intro scheme text u h
    cases h
  pathSet_control := by
    rintro c (hc | rfl)
    · rw [pathSet, hc, Bool.true_or]
    · decide
  pathSet_escape := by
    intro c hc
    rw [pathSet, controlSet_escape hc, contains_escape (by decide) hc, Bool.or_false]

/-- The libraries with the parser of these URLs. -/
def urlCrates : Crates :=
  { state.toCrates with parseUrl := fun text => (urlRules.parse text.toList).map Url.ofRecord }

theorem urlCrates_follows : urlCrates.FollowsStandard urlRules := ⟨fun _ => rfl⟩

end Sample

/-- An `https` issuer in lower case. -/
theorem issuer_reliable_lower :
    IssuerReliable Sample.urlCrates "https://id.example/" "https://id.example" ↔
      IssuerLiteral "https://id.example/" :=
  issuer_reliable Sample.urlCrates_follows (by decide +kernel)

/-- **The cookies of an `https` issuer in upper case are not secure.** -/
theorem issuer_upper : ¬∀ (r : Rules Host) (cr : Crates), cr.FollowsStandard r →
    ∀ raw issuer, Config.normalizeIssuer cr raw = .ok issuer → IssuerReliable cr raw issuer := by
  intro hall
  have hrel := hall _ _ Sample.urlCrates_follows "HTTPS://id.example" "HTTPS://id.example"
    (by decide +kernel)
  have hsecure := (hrel.secure { Sample.state with issuer := "HTTPS://id.example" } rfl).2
    ⟨⟨"https", "", none, some (.domain "id.example"), none, "/", none, none⟩, by decide +kernel, rfl⟩
  revert hsecure
  decide +kernel

/-! ### Return paths -/

/-- An `http` or `https` URL. -/
def WebUrl (H : Type) : Type :=
  { u : Record H // u.scheme = "http".toList ∨ u.scheme = "https".toList }

/-- A path of the site. -/
structure SitePath (path : String) : Prop where
  root : path = "/" ∨ ∃ c rest, path.toList = '/' :: c :: rest ∧ c ≠ '/'
  backslash : '\\' ∉ path.toList
  control : ∀ c ∈ path.toList, isControl c = false

theorem SitePath.safeReturnTo {path : String} (h : SitePath path) :
    Pages.safeReturnTo path = path := by
  have hroot : ['/'].isPrefixOf path.toList ∧ ¬['/', '/'].isPrefixOf path.toList := by
    rcases h.root with rfl | ⟨c, rest, hpath, hc⟩
    · simp
    · simp [hpath, hc.symm]
  have hcontrol : path.toList.all (fun c => !isControl c) = true := by
    simpa using h.control
  exact if_pos ⟨hroot.1, hroot.2, h.backslash, hcontrol⟩

/-- What is left of a return path. -/
theorem sitePath_safeReturnTo (candidate : String) : SitePath (Pages.safeReturnTo candidate) := by
  have hslash : SitePath "/" := by
    refine ⟨.inl rfl, by simp, ?_⟩
    simp [isControl]
  unfold Pages.safeReturnTo
  dsimp only
  split_ifs with h
  · obtain ⟨hfirst, hsecond, hbackslash, hcontrol⟩ := h
    refine ⟨?_, hbackslash, by simpa using hcontrol⟩
    cases hpath : candidate.toList with
    | nil => simp [hpath] at hfirst
    | cons c rest =>
        obtain rfl : '/' = c := by simpa [hpath] using hfirst
        cases rest with
        | nil => exact .inl (String.toList_inj.1 (by simp [hpath]))
        | cons d rest =>
            refine .inr ⟨d, rest, rfl, ?_⟩
            rintro rfl
            simp [hpath] at hsecond
  · exact hslash

/-- A path of the site is resolved on the site. -/
theorem SitePath.resolve {H : Type} (r : Rules H) (base : Record H) {path : String}
    (h : SitePath path) : ∃ u, r.resolve base path.toList = some u ∧ u.scheme = base.scheme ∧
      u.host = base.host ∧ u.port = base.port := by
  have htext : ∃ text, path.toList = '/' :: text ∧ text.head?.any isSlash = false := by
    rcases h.root with rfl | ⟨c, rest, hpath, hc⟩
    · exact ⟨[], by simp, rfl⟩
    · refine ⟨c :: rest, hpath, ?_⟩
      have hbackslash : c ≠ '\\' := by
        rintro rfl
        exact h.backslash (by simp [hpath])
      simp [isSlash, hc, hbackslash]
  obtain ⟨text, hpath, hnext⟩ := htext
  have hclean : ∀ c ∈ text, isRemoved c = false := by
    intro c hc
    have hcontrol := h.control c (by simp [hpath, hc])
    cases hremoved : isRemoved c with
    | false => rfl
    | true =>
        simp only [isRemoved, Bool.or_eq_true, beq_iff_eq] at hremoved
        rcases hremoved with (rfl | rfl) | rfl <;> exact absurd hcontrol (by decide)
  obtain ⟨u, hu, hscheme, -, -, hhost, hport⟩ := r.resolve_path base hclean hnext
  rw [hpath]
  exact ⟨u, hu, hscheme, hhost, hport⟩

/-- **A redirect after a sign-in stays on the site, and paths of the site are kept.** -/
theorem return_stays {H : Type} (r : Rules H) (base : WebUrl H) :
    (∀ candidate, ∃ u, r.resolve base.1 (Pages.safeReturnTo candidate).toList = some u ∧
      u.scheme = base.1.scheme ∧ u.host = base.1.host ∧ u.port = base.1.port) ∧
    ∀ path, SitePath path → Pages.safeReturnTo path = path :=
  ⟨fun candidate => (sitePath_safeReturnTo candidate).resolve r base.1,
    fun _ h => h.safeReturnTo⟩

end SharpOauth
