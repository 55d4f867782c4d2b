import SharpOauth.ConsentBrowser
import SharpOauth.CookieReading

/-! # Forms in open tabs

One browser that keeps a single CSRF cookie, starting with any value in it, and visits pages in
any order (`Browsing`); between its requests the tables may change in any way.

A form carries the token that `Csrf.issue` chose, and the token is the value that the server reads
from the browser's cookie from then on: either it was read from the cookie, or the cookie comes
with the page (`receiveAll_form`).  A later page reads the same value and uses it again, so every
form that was ever rendered stays valid (`open_tabs`). -/

namespace SharpOauth

open CookieManager

/-! ### The cookie of the browser -/

/-- What a browser does to its CSRF cookie when it receives a `Set-Cookie` header. -/
def receiveCsrf (cookie : Option (List UInt8)) (header : String) : Option (List UInt8) :=
  match splitOnce '=' header with
  | none => cookie
  | some (name, rest) =>
      if name = Csrf.csrfCookie then
        if "Max-Age=0" ∈ (splitAll ';' rest).tail.map trim then none
        else (splitAll ';' rest).head?.map utf8
      else cookie

/-- A part of a `Cookie` line that is about another cookie: visible, and without `;`. -/
structure ForeignPart (part : List UInt8) : Prop where
  visible : Visible part
  separator : 0x3B ∉ part
  name : ∀ p ∈ cookiePairs part, p.1 ≠ Csrf.csrfCookie

/-- A `Cookie` line without the CSRF cookie. -/
def ForeignLine (line : List UInt8) : Prop :=
  ∃ parts ≠ [], (∀ part ∈ parts, ForeignPart part) ∧ line = [0x3B].intercalate parts

/-- The part of a `Cookie` line that sends the CSRF cookie. -/
def csrfPart (value : List UInt8) : List UInt8 := utf8 "sharp_csrf=" ++ value

/-- The `Cookie` lines send the CSRF cookie of the browser, whatever cookies surround it. -/
inductive Sends : Option (List UInt8) → HeaderMap → Prop where
  | absent (headers : HeaderMap) (h : ∀ line ∈ headers.cookie, ForeignLine line) :
      Sends none headers
  | present (headers : HeaderMap) (value : List UInt8) (hvalue : 0x3B ∉ value)
      (before after : List (List UInt8)) (hlines : ∀ line ∈ before ++ after, ForeignLine line)
      (left right : List (List UInt8)) (hparts : ∀ part ∈ left ++ right, ForeignPart part)
      (blanks : List UInt8) (hblanks : ∀ b ∈ blanks, b = 0x20)
      (hcookie : headers.cookie = before ++
        [0x3B].intercalate (left ++ (blanks ++ csrfPart value) :: right) :: after) :
      Sends (some value) headers

/-- What the server reads from the cookie. -/
def readBack (value : List UInt8) : Option String :=
  get ⟨none, [csrfPart value]⟩ Csrf.csrfCookie

/-! ### Reading it back -/

/-- Foreign parts have no pair of the name. -/
theorem namedPairs_foreign {parts : List (List UInt8)} (h : ∀ part ∈ parts, ForeignPart part) :
    (parts.flatMap cookiePairs).filter (fun p => p.1 = Csrf.csrfCookie) = [] := by
  rw [List.filter_eq_nil_iff]
  intro p hp
  obtain ⟨part, hpart, hpair⟩ := List.mem_flatMap.1 hp
  simpa using (h part hpart).name p hpair

theorem namedPairs_foreignLines {lines : List (List UInt8)} (h : ∀ line ∈ lines, ForeignLine line) :
    namedPairs Csrf.csrfCookie (lines.filter Visible) = [] := by
  rw [namedPairs, List.filter_eq_nil_iff]
  intro p hp
  obtain ⟨line, hline, hpair⟩ := List.mem_flatMap.1 hp
  obtain ⟨parts, hne, hparts, rfl⟩ := h line (List.mem_filter.1 hline).1
  rw [cookiePairs_intercalate hne fun part hpart => (hparts part hpart).separator] at hpair
  obtain ⟨part, hpart, hpair⟩ := List.mem_flatMap.1 hpair
  simpa using (hparts part hpart).name p hpair

/-- **The server reads the cookie whatever surrounds it.** -/
theorem Sends.get_eq {cookie : Option (List UInt8)} {headers : HeaderMap} (h : Sends cookie headers) :
    get headers Csrf.csrfCookie = cookie.bind readBack := by
  cases h with
  | absent headers hlines =>
      rw [CookieManager.get_eq, namedPairs_foreignLines hlines]
      rfl
  | present headers value hvalue before after hlines left right hparts blanks hblanks hcookie =>
      have hbefore := namedPairs_foreignLines fun line hline => hlines line (List.mem_append_left _ hline)
      have hafter := namedPairs_foreignLines fun line hline => hlines line (List.mem_append_right _ hline)
      have hleft := namedPairs_foreign fun part hpart => hparts part (List.mem_append_left _ hpart)
      have hright := namedPairs_foreign fun part hpart => hparts part (List.mem_append_right _ hpart)
      have hpart : 0x3B ∉ csrfPart value := by
        rw [csrfPart, List.mem_append, not_or]
        exact ⟨by decide +kernel, hvalue⟩
      have hblank : ∀ part ∈ left ++ (blanks ++ csrfPart value) :: right, 0x3B ∉ part := by
        intro part hmem
        rcases List.mem_append.1 hmem with hmem | hmem
        · exact (hparts part (List.mem_append_left _ hmem)).separator
        · rcases List.mem_cons.1 hmem with rfl | hmem
          · rw [List.mem_append, not_or]
            exact ⟨fun hb => absurd (hblanks _ hb) (by decide), hpart⟩
          · exact (hparts part (List.mem_append_right _ hmem)).separator
      have hne : left ++ (blanks ++ csrfPart value) :: right ≠ [] := by simp
      -- The line is visible if the cookie is.
      have hvisible : Visible ([0x3B].intercalate (left ++ (blanks ++ csrfPart value) :: right)) ↔
          Visible (csrfPart value) := by
        have hspace : ∀ b ∈ blanks, (32 ≤ b.toNat ∧ b.toNat < 127) ∨ b = 9 := by
          intro b hb
          rw [hblanks b hb]
          decide
        rw [visible_intercalate hne]
        constructor
        · intro hall
          have hmem := hall _ (List.mem_append_right _ List.mem_cons_self)
          rw [visible_iff] at hmem ⊢
          exact fun b hb => hmem b (List.mem_append_right _ hb)
        · intro hvalue part hmem
          rcases List.mem_append.1 hmem with hmem | hmem
          · exact (hparts part (List.mem_append_left _ hmem)).visible
          · rcases List.mem_cons.1 hmem with rfl | hmem
            · rw [visible_iff] at hvalue ⊢
              intro b hb
              rcases List.mem_append.1 hb with hb | hb
              · exact hspace b hb
              · exact hvalue b hb
            · exact (hparts part (List.mem_append_right _ hmem)).visible
      have hline : namedPairs Csrf.csrfCookie
          [[0x3B].intercalate (left ++ (blanks ++ csrfPart value) :: right)] =
          namedPairs Csrf.csrfCookie [csrfPart value] := by
        have hsingle (line : List UInt8) : namedPairs Csrf.csrfCookie [line] =
            (cookiePairs line).filter fun p => p.1 = Csrf.csrfCookie := by
          rw [namedPairs, List.flatMap_singleton]
        rw [hsingle, hsingle, cookiePairs_intercalate hne hblank, List.flatMap_append,
          List.flatMap_cons, List.filter_append, List.filter_append, hleft, hright,
          cookiePairs_blanks hblanks hpart, List.nil_append, List.append_nil]
      have hsame : namedPairs Csrf.csrfCookie (headers.cookie.filter Visible) =
          namedPairs Csrf.csrfCookie ([csrfPart value].filter Visible) := by
        rw [hcookie, List.filter_append, namedPairs_append, hbefore, List.nil_append]
        by_cases hv : Visible (csrfPart value)
        · rw [List.filter_cons_of_pos (by simpa using hvisible.2 hv),
            List.filter_cons_of_pos (by simpa using hv), List.filter_nil, ← hline,
            ← List.singleton_append, namedPairs_append, hafter, List.append_nil]
        · rw [List.filter_cons_of_neg (by simpa using fun h => hv (hvisible.1 h)),
            List.filter_cons_of_neg (by simpa using hv), List.filter_nil, hafter]
          rfl
      rw [CookieManager.get_eq, hsame, Option.bind_some, readBack, CookieManager.get_eq]

/-! ### A new cookie -/

theorem utf8_token_length (bytes : Vector UInt8 32) : (utf8 (generateToken bytes)).length = 43 := by
  have hascii : ∀ c ∈ (generateToken bytes).toList, c.toNat < 128 := by
    intro c hc
    have hvisible := (base64Alphabet_visible c (token_chars hc)).1
    omega
  rw [utf8_of_ascii hascii, List.length_map, generateToken, base64url, String.toList_ofList,
    base64Chars_length, Vector.length_toList]

/-- A token is read back from the cookie. -/
theorem readBack_token (bytes : Vector UInt8 32) :
    readBack (utf8 (generateToken bytes)) = some (generateToken bytes) := by
  have hpart : csrfPart (utf8 (generateToken bytes)) =
      utf8 (Csrf.csrfCookie ++ "=" ++ generateToken bytes) := by
    rw [csrfPart, ← utf8_append]
    rfl
  rw [readBack, hpart, get_tokenPair csrfCookie_chars]

/-- The browser takes a new cookie. -/
theorem receiveCsrf_set (cookie : Option (List UInt8)) (bytes : Vector UInt8 32) (secure : Bool) :
    receiveCsrf cookie (set Csrf.csrfCookie (generateToken bytes) none secure) =
      some (utf8 (generateToken bytes)) := by
  have hlives : ∀ secure : Bool, "Max-Age=0" ∉ (splitAll ';' (" Path=/; HttpOnly; SameSite=Lax" ++
      (if secure then "; Secure" else ""))).map trim := by
    decide +kernel
  have hset : set Csrf.csrfCookie (generateToken bytes) none secure =
      Csrf.csrfCookie ++ String.singleton '=' ++ (generateToken bytes ++ String.singleton ';' ++
        (" Path=/; HttpOnly; SameSite=Lax" ++ (if secure then "; Secure" else ""))) := by
    have hpath : "; Path=/; HttpOnly; SameSite=Lax".toList =
        ';' :: " Path=/; HttpOnly; SameSite=Lax".toList := by
      simp
    unfold CookieManager.set
    rw [← String.toList_inj]
    simp only [String.toList_append, List.append_assoc, hpath, String.toList_singleton,
      List.cons_append, List.nil_append, String.toList_empty]
    rfl
  rw [receiveCsrf, hset, splitOnce_append (by decide)]
  dsimp only
  rw [if_pos rfl, splitAll_append (semicolon_not_mem_token bytes), List.tail_cons, if_neg (hlives secure),
    List.head?_cons, Option.map_some]

/-- A cookie with another name leaves it alone. -/
theorem receiveCsrf_other (cookie : Option (List UInt8)) {header : String}
    (h : (splitOnce '=' header).map Prod.fst ≠ some Csrf.csrfCookie) :
    receiveCsrf cookie header = cookie := by
  unfold receiveCsrf
  cases hsplit : splitOnce '=' header with
  | none => rfl
  | some p =>
      have hname : p.1 ≠ Csrf.csrfCookie := by
        intro heq
        rw [hsplit, Option.map_some, heq] at h
        exact h rfl
      exact if_neg hname

/-! ### Browsing -/

/-- The tokens of the forms in a response. -/
def Response.csrfForms (r : Response) : List String := r.body.csrf?.toList

/-- `Browsing st cookie tabs`: after some requests and their responses the CSRF cookie of the
browser is `cookie`, and `tabs` are the tokens of the forms it has received. -/
inductive Browsing (st : AppState) : Option (List UInt8) → List String → Prop where
  | start (cookie : Option (List UInt8)) : Browsing st cookie []
  | visit {cookie : Option (List UInt8)} {tabs : List String} (h : Browsing st cookie tabs)
      (req : Request) (headers : HeaderMap) (hheaders : req.headers? = some headers)
      (hsends : Sends cookie headers) (d : Draws) (faults : List Bool) (db : Db) :
      Browsing st ((serve st d faults req db).1.setCookie.foldl receiveCsrf cookie)
        ((serve st d faults req db).1.csrfForms ++ tabs)

/-- The server reads the token of every form from the cookie, and reuses it. -/
def TabsValid (cookie : Option (List UInt8)) (tabs : List String) : Prop :=
  ∀ t ∈ tabs, cookie.bind readBack = some t ∧ (utf8 t).length = 43

section browsing

variable {st : AppState} {d : Draws} {headers : HeaderMap} {cookie : Option (List UInt8)}
  {tabs : List String}

/-- **A page with a form keeps the forms that are open.** -/
theorem TabsValid.form (h : TabsValid cookie tabs) (hsends : Sends cookie headers) :
    TabsValid ((formToken st d headers).setCookie.toList.foldl receiveCsrf cookie)
      ((formToken st d headers).value :: tabs) := by
  have hget := hsends.get_eq
  rw [formToken, Csrf.issue]
  cases hread : (get headers Csrf.csrfCookie).filter fun value => (utf8 value).length = 43 with
  | some value =>
      -- The value of the cookie is used again.
      obtain ⟨hvalue, hlength⟩ := Option.filter_eq_some_iff.1 hread
      intro t ht
      rcases List.mem_cons.1 ht with rfl | ht
      · exact ⟨hget.symm.trans hvalue, by simpa using hlength⟩
      · exact h t ht
  | none =>
      -- No form can be open: its token would have been used again.
      have hnone : tabs = [] := by
        rw [List.eq_nil_iff_forall_not_mem]
        intro t ht
        obtain ⟨hvalue, hlength⟩ := h t ht
        rw [hget, hvalue, Option.filter_some, if_pos (by simpa using hlength)] at hread
        cases hread
      intro t ht
      rw [hnone, List.mem_singleton] at ht
      rw [ht]
      dsimp only
      rw [Option.toList_some, List.foldl_cons, List.foldl_nil, receiveCsrf_set, Option.bind_some]
      exact ⟨readBack_token _, utf8_token_length _⟩

theorem TabsValid.response (h : TabsValid cookie tabs) (hsends : Sends cookie headers) {r : Response}
    (hr : r.Regular st d headers) :
    TabsValid (r.setCookie.foldl receiveCsrf cookie) (r.csrfForms ++ tabs) := by
  rcases hr with hshape | hsession
  · cases hshape with
    | plain status body hbody =>
        rw [Response.csrfForms, hbody]
        exact h
    | form status page hpage =>
        have hforms : (withCsrfCookie (render status page) (formToken st d headers)).csrfForms =
            [(formToken st d headers).value] := by
          rw [Response.csrfForms]
          show page.csrf?.toList = _
          rw [hpage]
          rfl
        rw [hforms]
        exact h.form hsends
  · cases hsession with
    | intro location value maxAge =>
        have hname : (splitOnce '=' (set Session.sessionCookie value (some maxAge)
            st.secureCookies)).map Prod.fst ≠ some Csrf.csrfCookie := by
          rw [splitOnce_set (by decide)]
          decide
        rw [List.foldl_cons, List.foldl_nil, receiveCsrf_other cookie hname]
        exact h

/-- The forms of a browser are valid. -/
theorem Browsing.tabsValid (h : Browsing st cookie tabs) : TabsValid cookie tabs := by
  induction h with
  | start cookie => exact fun t ht => absurd ht List.not_mem_nil
  | visit h req headers hheaders hsends d faults db ih =>
      have hsame : ∀ headers', req.headers? = some headers' → headers' = headers := by
        intro headers' hsome
        exact Option.some.inj (hsome.symm.trans hheaders)
      have hregular : (serve st d faults req db).1.Regular st d headers := by
        rcases serve_shape faults db hsame with hshape | ⟨-, hregular⟩
        · exact .inl hshape
        · exact hregular
      exact ih.response hsends hregular

/-- **Open tabs keep working.**  Every form that was rendered passes the CSRF check whenever it is
submitted. -/
theorem open_tabs (h : Browsing st cookie tabs) (hsends : Sends cookie headers) :
    ∀ t ∈ tabs, Csrf.verify headers (some t) = true := by
  intro t ht
  obtain ⟨hvalue, -⟩ := h.tabsValid t ht
  have hget : get headers Csrf.csrfCookie = some t := hsends.get_eq.trans hvalue
  simp [Csrf.verify, hget]

end browsing

/-- The form of the first sign-in page. -/
theorem open_tabs_signIn : Csrf.verify
    ⟨none, [csrfPart (utf8 (generateToken ((Sample.draws 1).secret 2)))]⟩
    (some (generateToken ((Sample.draws 1).secret 2))) = true := by
  have hbrowsing : Browsing Sample.state _ _ := .visit (.start none) (.signInPage ⟨none, []⟩ none)
    ⟨none, []⟩ rfl (.absent _ fun _ h => absurd h List.not_mem_nil) (Sample.draws 1) [] Db.init
  have hresponse : (serve Sample.state (Sample.draws 1) [] (.signInPage ⟨none, []⟩ none) Db.init).1 =
      ⟨200, .page (.signIn (generateToken ((Sample.draws 1).secret 2)) none "" none),
        [set Csrf.csrfCookie (generateToken ((Sample.draws 1).secret 2)) none
          Sample.state.secureCookies]⟩ := rfl
  rw [hresponse, List.foldl_cons, List.foldl_nil, receiveCsrf_set] at hbrowsing
  have hsep : 0x3B ∉ utf8 (generateToken ((Sample.draws 1).secret 2)) := by
    decide +kernel
  have hsends : Sends (some (utf8 (generateToken ((Sample.draws 1).secret 2))))
      ⟨none, [csrfPart (utf8 (generateToken ((Sample.draws 1).secret 2)))]⟩ :=
    .present _ _ hsep [] [] (by simp) [] [] (by simp) [] (by simp) (by simp)
  exact open_tabs hbrowsing hsends _ (List.mem_append_left _ (by simp [Response.csrfForms, Body.csrf?,
    Page.csrf?]))

end SharpOauth
