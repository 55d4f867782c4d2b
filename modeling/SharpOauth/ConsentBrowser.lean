import SharpOauth.Sessions
import SharpOauth.ConsentPage
import SharpOauth.CookieReading

/-! # Consent pages in several tabs

One browser with its cookies, the consent pages open in its tabs, and the forms it sends from
them, among the requests of everyone else (`Browses`).

A consent page names a user, but its form is served for whoever the session cookie belongs to
when it arrives.  The two agree as long as the last session that was started in the browser is a
session of the user on the page (`consent_recorded`); after a sign-in as someone else, the form
records the consent for the other user (`consent_for_other_user`). -/

namespace SharpOauth

open Authorization

/-! ### Cookies of a browser -/

/-- The cookies of a browser. -/
abbrev Jar : Type := String → Option String

/-- What a browser does with a `Set-Cookie` header `name=value; attribute; …`. -/
def Jar.receive (jar : Jar) (header : String) : Jar :=
  match splitOnce '=' header with
  | none => jar
  | some (name, rest) =>
      Function.update jar name
        (if "Max-Age=0" ∈ (splitAll ';' rest).tail.map trim then none else (splitAll ';' rest).head?)

/-- The cookies after a response. -/
def Jar.receiveAll (jar : Jar) (r : Response) : Jar := r.setCookie.foldl receive jar

theorem semicolon_not_mem_token (bytes : Vector UInt8 32) : ';' ∉ (generateToken bytes).toList := by
  intro h
  rw [generateToken, base64url, String.toList_ofList] at h
  exact absurd (mem_base64Chars _ h) (by decide)

/-- Splitting at the first separator. -/
theorem splitAll_append {sep : Char} {a : String} (h : sep ∉ a.toList) (b : String) :
    splitAll sep (a ++ String.singleton sep ++ b) = a :: splitAll sep b := by
  rw [splitAll, String.toList_append, String.toList_append, String.toList_singleton, List.append_assoc,
    List.singleton_append, List.splitOn_append_cons_self_of_not_mem h, List.map_cons,
    String.ofList_toList, splitAll]

/-- A cookie without a quoted value is stored, or removed if it has expired. -/
theorem Jar.receive_set (jar : Jar) {name value : String} (hname : '=' ∉ name.toList)
    (hvalue : ';' ∉ value.toList) {attributes : String} :
    jar.receive (name ++ "=" ++ (value ++ ";" ++ attributes)) = Function.update jar name
      (if "Max-Age=0" ∈ (splitAll ';' attributes).map trim then none else some value) := by
  have heq : "=" = String.singleton '=' := rfl
  have hsemi : ";" = String.singleton ';' := rfl
  rw [receive, heq, splitOnce_append hname]
  dsimp only
  rw [hsemi, splitAll_append hvalue]
  rfl

/-- A response that does not set the cookie. -/
theorem Jar.receiveAll_other (jar : Jar) {r : Response} {name : String} (h : ¬r.Sets name) :
    jar.receiveAll r name = jar name := by
  have hheaders : ∀ header ∈ r.setCookie, (splitOnce '=' header).map Prod.fst ≠ some name :=
    fun header hmem hname => h ⟨header, hmem, hname⟩
  rw [receiveAll]
  generalize r.setCookie = headers at hheaders
  induction headers generalizing jar with
  | nil => rfl
  | cons header headers ih =>
      rw [List.foldl_cons, ih _ fun x hx => hheaders x (List.mem_cons_of_mem _ hx)]
      have hne := hheaders header List.mem_cons_self
      rw [receive]
      cases hsplit : splitOnce '=' header with
      | none => rfl
      | some p =>
          have hname : name ≠ p.1 := by
            intro heq
            rw [hsplit, Option.map_some, heq] at hne
            exact hne rfl
          exact Function.update_of_ne hname ..

/-- The attributes of a cookie of this server. -/
def cookieAttributes (maxAge : Duration) (secure : Bool) : String :=
  " Path=/; HttpOnly; SameSite=Lax" ++ ("; Max-Age=" ++ toString (Duration.numSeconds maxAge)) ++
    (if secure then "; Secure" else "")

theorem CookieManager.set_eq (name value : String) (maxAge : Duration) (secure : Bool) :
    set name value (some maxAge) secure =
      name ++ "=" ++ (value ++ ";" ++ cookieAttributes maxAge secure) := by
  have hpath : "; Path=/; HttpOnly; SameSite=Lax".toList =
      ';' :: " Path=/; HttpOnly; SameSite=Lax".toList := by
    simp
  have hsemi : ";".toList = [';'] := rfl
  have hparts (a b : String) : name ++ "=" ++ value ++ "; Path=/; HttpOnly; SameSite=Lax" ++ a ++ b =
      name ++ "=" ++ (value ++ ";" ++ (" Path=/; HttpOnly; SameSite=Lax" ++ a ++ b)) := by
    rw [← String.toList_inj]
    simp only [String.toList_append, List.append_assoc, hpath, hsemi, List.cons_append,
      List.nil_append]
  unfold set cookieAttributes
  exact hparts _ _

theorem Jar.receiveAll_started (jar : Jar) (st : AppState) (d : Draws) (returnTo : String) :
    jar.receiveAll (Pages.sessionStarted st d returnTo) Session.sessionCookie =
      some (generateToken (d.secret 0)) := by
  have hlives : ∀ secure : Bool, "Max-Age=0" ∉
      (splitAll ';' (cookieAttributes Session.sessionTtl secure)).map trim := by
    decide +kernel
  have hreceive : jar.receiveAll (Pages.sessionStarted st d returnTo) = jar.receive
      (CookieManager.set Session.sessionCookie (generateToken (d.secret 0)) (some Session.sessionTtl)
        st.secureCookies) := rfl
  rw [hreceive, CookieManager.set_eq, receive_set jar (by decide) (semicolon_not_mem_token _),
    if_neg (hlives _), Function.update_self]

theorem Jar.receiveAll_ended (jar : Jar) (st : AppState) :
    jar.receiveAll (Pages.sessionEnded st) Session.sessionCookie = none := by
  have hexpired : ∀ secure : Bool, "Max-Age=0" ∈ (splitAll ';' (cookieAttributes 0 secure)).map trim := by
    decide +kernel
  have hreceive : jar.receiveAll (Pages.sessionEnded st) = jar.receive
      (CookieManager.set Session.sessionCookie "" (some 0) st.secureCookies) := rfl
  rw [hreceive, CookieManager.set_eq, receive_set jar (by decide) (by decide), if_pos (hexpired _),
    Function.update_self]

/-! ### One browser among others -/

/-- A consent page that is open in a tab. -/
structure ConsentTab where
  csrf : String
  /-- Whom the page displays as signed in. -/
  user : User
  fields : List (String × String)
deriving DecidableEq

/-- The consent page in the answer to an authorization request. -/
def Event.consentTab? (e : Event) : Option ConsentTab :=
  match e.req, e.response.body with
  | .authorize _ _, .page (.consent csrf _ user _ fields) => some ⟨csrf, user, fields⟩
  | _, _ => none

/-- A form that was sent from a consent page. -/
structure Submission where
  tab : ConsentTab
  /-- The user of the last session that had been started in the browser. -/
  account : Option Uuid
  event : Event

/-- A browser, with the forms it has sent. -/
structure Browser where
  jar : Jar
  tabs : List ConsentTab
  account : Option Uuid
  submitted : List Submission

/-- The browser with the cookies and the page of a response. -/
def Browser.receive (b : Browser) (e : Event) : Browser :=
  { b with jar := b.jar.receiveAll e.response, tabs := e.consentTab?.toList ++ b.tabs }

/-- The cookies the server reads are the ones in the jar. -/
structure Carries (headers : HeaderMap) (jar : Jar) : Prop where
  session : CookieManager.get headers Session.sessionCookie = jar Session.sessionCookie
  csrf : CookieManager.get headers Csrf.csrfCookie = jar Csrf.csrfCookie

/-- The event may be the next of a run. -/
structure NextEvent (st : AppState) (es : List Event) (e : Event) : Prop where
  fresh : Fresh es e.draws
  response : e.response = e.answer st

/-- `Browses st b es db`: the browser `b` took part in the run `es`, which led to `db`.  Its tabs
stay open, it may lose cookies at any time, and a response to it may get lost (`elsewhere`). -/
inductive Browses (st : AppState) : Browser → List Event → Db → Prop where
  | start : Browses st ⟨fun _ => none, [], none, []⟩ [] Db.init
  | elsewhere {b : Browser} {es : List Event} {e : Event} (h : Browses st b es e.before)
      (hnext : NextEvent st es e) : Browses st b (e :: es) (e.after st)
  | forget {b : Browser} {es : List Event} {db : Db} (h : Browses st b es db) (name : String) :
      Browses st { b with jar := Function.update b.jar name none } es db
  | visit {b : Browser} {es : List Event} {e : Event} (h : Browses st b es e.before)
      (hnext : NextEvent st es e) (headers : HeaderMap) (hheaders : e.req.headers? = some headers)
      (hcarries : Carries headers b.jar) (hreq : ∀ headers pairs, e.req ≠ .consent headers pairs)
      (hsignIn : ∀ headers user, ¬SignsIn st e headers user) :
      Browses st (b.receive e) (e :: es) (e.after st)
  | signIn {b : Browser} {es : List Event} {e : Event} (h : Browses st b es e.before)
      (hnext : NextEvent st es e) (headers : HeaderMap) (hheaders : e.req.headers? = some headers)
      (hcarries : Carries headers b.jar) (user : User) (hsignIn : SignsIn st e headers user) :
      Browses st { b.receive e with account := some user.id } (e :: es) (e.after st)
  | submit {b : Browser} {es : List Event} {e : Event} (h : Browses st b es e.before)
      (hnext : NextEvent st es e) (tab : ConsentTab) (htab : tab ∈ b.tabs) (headers : HeaderMap)
      (hcarries : Carries headers b.jar) (decision : String) (pairs : List (String × String))
      (hform : pairs.Perm ([(Csrf.csrfField, tab.csrf), ("decision", decision)] ++ tab.fields))
      (hreq : e.req = .consent headers pairs) :
      Browses st { b.receive e with submitted := ⟨tab, b.account, e⟩ :: b.submitted } (e :: es)
        (e.after st)

/-! ### For whom a form stores -/

namespace Submission

variable (st : AppState) (p : Submission)

/-- The form stored a code or a consent. -/
def Stores : Prop :=
  (∃ c ∈ (p.event.after st).codes, c ∉ p.event.before.codes) ∨
    ∃ c ∈ (p.event.after st).consents, c ∉ p.event.before.consents

/-- What it stored is stored for the user. -/
def StoresFor (id : Uuid) : Prop :=
  (∀ c ∈ (p.event.after st).codes, c ∉ p.event.before.codes → c.userId = id) ∧
    ∀ c ∈ (p.event.after st).consents, c ∉ p.event.before.consents → c.userId = id

/-- What it stored is stored for the user whose e-mail the page displayed. -/
def Faithful : Prop :=
  ∃ user ∈ p.event.before.users, user.email = p.tab.user.email ∧ p.StoresFor st user.id

/-- What it stored is stored for the user of the last session of the browser. -/
structure Explained : Prop where
  user_mem : p.tab.user ∈ p.event.before.users
  unique : p.event.before.Unique
  codes : ∀ c ∈ (p.event.after st).codes, c ∉ p.event.before.codes → p.account = some c.userId
  consents : ∀ c ∈ (p.event.after st).consents, c ∉ p.event.before.consents →
    p.account = some c.userId

variable {st p}

theorem Explained.faithful (h : p.Explained st) (haccount : p.account = some p.tab.user.id) :
    p.Faithful st := by
  refine ⟨p.tab.user, h.user_mem, rfl, fun c hc hnew => ?_, fun c hc hnew => ?_⟩
  · exact Option.some.inj ((h.codes c hc hnew).symm.trans haccount)
  · exact Option.some.inj ((h.consents c hc hnew).symm.trans haccount)

theorem Explained.account (h : p.Explained st) (hstores : p.Stores st) (hfaithful : p.Faithful st) :
    p.account = some p.tab.user.id := by
  obtain ⟨user, huser, hemail, hcodes, hconsents⟩ := hfaithful
  have hsame : user = p.tab.user :=
    h.unique.eq (t := .users) huser h.user_mem (by simp [clash, hemail])
  rw [← hsame]
  rcases hstores with ⟨c, hc, hnew⟩ | ⟨c, hc, hnew⟩
  · rw [h.codes c hc hnew, hcodes c hc hnew]
  · rw [h.consents c hc hnew, hconsents c hc hnew]

end Submission

section browsing

variable {st : AppState} {b : Browser} {es : List Event} {e : Event} {db : Db}

theorem Run.next (run : Run st es e.before) (h : NextEvent st es e) : Run st (e :: es) (e.after st) := by
  obtain ⟨req, d, faults, before, response⟩ := e
  have hresponse : response = (serve st d faults req before).1 := h.response
  subst hresponse
  exact run.step req d faults h.fresh

/-- A new consent of an approval is one of the user. -/
theorem Db.consent_of_grant {d : Draws} {userId clientId : Uuid} {scopes : ScopeSet} {u : Unit}
    (h : db.result (db.grantStatement userId clientId d scopes) = .ok u) :
    ∀ c ∈ (db.after (db.grantStatement userId clientId d scopes)).consents, c ∉ db.consents →
      c.userId = userId := by
  intro c hc hnew
  rcases Db.after_consentsUpsert db h with ⟨-, hrows⟩ | ⟨-, hrows⟩
  · rw [Db.grantStatement, hrows] at hc
    obtain ⟨r, hr, rfl⟩ := List.mem_map.1 hc
    rw [Db.approve] at hnew ⊢
    split_ifs at hnew ⊢ with hpair
    · exact hpair.1
    · exact absurd hr hnew
  · rw [Db.grantStatement, hrows] at hc
    rcases List.mem_append.1 hc with hc | hc
    · exact absurd hc hnew
    · rw [List.mem_singleton.1 hc]

/-- **A consent form stores for the user who is signed in.** -/
theorem ConsentEffect.owner {d : Draws} {headers : HeaderMap} {pairs : List (String × String)}
    {r : Response} {db' : Db} (h : ConsentEffect st d headers pairs db r db') {id : Uuid}
    (hid : (∃ c ∈ db'.codes, c ∉ db.codes ∧ c.userId = id) ∨
      ∃ c ∈ db'.consents, c ∉ db.consents ∧ c.userId = id) :
    ∃ session user, SignedIn st.toCrates d headers db session user ∧ user.id = id := by
  have hnone (hdb : db' = db) : False := by
    subst hdb
    rcases hid with ⟨c, hc, hnew, -⟩ | ⟨c, hc, hnew, -⟩ <;> exact hnew hc
  cases h with
  | grantedOnly params hp hcsrf happroved session user hs v hv hgrant =>
      refine ⟨session, user, hs, ?_⟩
      rcases hid with ⟨c, hc, hnew, -⟩ | ⟨c, hc, hnew, rfl⟩
      · rw [codes_grantStatement] at hc
        exact absurd hc hnew
      · exact (Db.consent_of_grant hgrant c hc hnew).symm
  | issued params hp hcsrf happroved session user hs v hv hgrant hinsert =>
      refine ⟨session, user, hs, ?_⟩
      rcases hid with ⟨c, hc, hnew, rfl⟩ | ⟨c, hc, hnew, rfl⟩
      · rw [Db.after_codesInsert _ hinsert, codes_grantStatement] at hc
        rcases List.mem_append.1 hc with hc | hc
        · exact absurd hc hnew
        · rw [List.mem_singleton.1 hc]
          rfl
      · rw [Db.consents, Db.after_of_writes _ (by simp [Stmt.writes])] at hc
        exact (Db.consent_of_grant hgrant c hc hnew).symm
  | _ => exact (hnone rfl).elim

/-! ### The invariant -/

/-- The session cookie belongs to the last session that was started in the browser. -/
structure BrowserInv (st : AppState) (b : Browser) (es : List Event) (db : Db) : Prop where
  run : Run st es db
  session : ∀ t, b.jar Session.sessionCookie = some t →
    ∃ s ∈ db.sessions, s.sessionTokenHash = st.hashToken t ∧ b.account = some s.userId
  tabs : ∀ tab ∈ b.tabs, tab.user ∈ db.users
  submitted : ∀ p ∈ b.submitted, p.Explained st

/-- The user on a consent page has an account. -/
theorem user_of_consentTab (hresponse : e.response = e.answer st) {tab : ConsentTab}
    (h : e.consentTab? = some tab) : tab.user ∈ (e.after st).users := by
  unfold Event.consentTab? at h
  split at h
  · rename_i headers pairs csrf name user scopes fields hreq hbody
    obtain rfl := Option.some.inj h
    rw [hresponse, Event.answer, hreq] at hbody
    obtain ⟨params, v, hasks⟩ := authorize_asks hbody
    obtain ⟨session, hs⟩ := hasks.signedIn
    exact e.users_subset st hs.user_mem
  · cases h

theorem BrowserInv.elsewhere (h : BrowserInv st b es e.before) (hnext : NextEvent st es e) :
    BrowserInv st b (e :: es) (e.after st) where
  run := h.run.next hnext
  session t ht := by
    obtain ⟨s, hs, hhash, haccount⟩ := h.session t ht
    obtain ⟨s', hs', hhash', huser⟩ := e.sessions_persist st s hs
    exact ⟨s', hs', hhash'.trans hhash, by rw [haccount, huser]⟩
  tabs tab htab := e.users_subset st (h.tabs tab htab)
  submitted := h.submitted

/-- The cookie after a response that starts no session. -/
theorem BrowserInv.receive (h : BrowserInv st b es e.before) (hnext : NextEvent st es e)
    (hsignIn : ∀ headers user, ¬SignsIn st e headers user) :
    BrowserInv st (b.receive e) (e :: es) (e.after st) := by
  have helsewhere := h.elsewhere hnext
  refine ⟨helsewhere.run, fun t ht => ?_, fun tab htab => ?_, h.submitted⟩
  · have hjar : b.jar.receiveAll e.response Session.sessionCookie = some t := ht
    cases Event.cookie_step hnext.response with
    | kept hkeeps =>
        rw [Jar.receiveAll_other _ hkeeps] at hjar
        exact helsewhere.session t hjar
    | ended hended =>
        rw [hended, Jar.receiveAll_ended] at hjar
        cases hjar
    | started headers user returnTo hin => exact absurd hin (hsignIn headers user)
  · rcases List.mem_append.1 htab with htab | htab
    · exact user_of_consentTab hnext.response (Option.mem_toList.1 htab)
    · exact helsewhere.tabs tab htab

theorem BrowserInv.signIn (h : BrowserInv st b es e.before) (hnext : NextEvent st es e)
    {headers : HeaderMap} {user : User} (hsignIn : SignsIn st e headers user) :
    BrowserInv st { b.receive e with account := some user.id } (e :: es) (e.after st) := by
  have helsewhere := h.elsewhere hnext
  refine ⟨helsewhere.run, fun t ht => ?_, fun tab htab => ?_, h.submitted⟩
  · have hjar : b.jar.receiveAll e.response Session.sessionCookie = some t := ht
    cases Event.cookie_step hnext.response with
    | kept hkeeps => exact absurd hsignIn.sets hkeeps
    | ended hended =>
        rw [hended, Jar.receiveAll_ended] at hjar
        cases hjar
    | started headers' user' returnTo hin hstarted huser hrow =>
        obtain rfl := hsignIn.eq h.run.unique hin
        rw [hstarted, Jar.receiveAll_started] at hjar
        obtain rfl := Option.some.inj hjar
        exact ⟨_, hrow, rfl, rfl⟩
  · rcases List.mem_append.1 htab with htab | htab
    · exact user_of_consentTab hnext.response (Option.mem_toList.1 htab)
    · exact helsewhere.tabs tab htab

theorem BrowserInv.submit (h : BrowserInv st b es e.before) (hnext : NextEvent st es e)
    {tab : ConsentTab} (htab : tab ∈ b.tabs) {headers : HeaderMap} (hcarries : Carries headers b.jar)
    {pairs : List (String × String)} (hreq : e.req = .consent headers pairs) :
    BrowserInv st { b.receive e with submitted := ⟨tab, b.account, e⟩ :: b.submitted } (e :: es)
      (e.after st) := by
  have hsignIn : ∀ headers user, ¬SignsIn st e headers user := by
    intro headers' user hin
    rcases hin.req with ⟨form, hreq'⟩ | ⟨form, hreq'⟩ <;> cases hreq.symm.trans hreq'
  have hreceive := h.receive hnext hsignIn
  refine ⟨hreceive.run, hreceive.session, hreceive.tabs, fun p hp => ?_⟩
  rcases List.mem_cons.1 hp with rfl | hp
  · -- The session cookie says for whom the form is served.
    have heffect : ConsentEffect st e.draws headers pairs e.before (e.answer st) (e.after st) := by
      rw [Event.answer, Event.after, hreq]
      exact serve_consent st e.draws headers pairs e.faults e.before
    have howner (id : Uuid) (hid : (∃ c ∈ (e.after st).codes, c ∉ e.before.codes ∧ c.userId = id) ∨
        ∃ c ∈ (e.after st).consents, c ∉ e.before.consents ∧ c.userId = id) : b.account = some id := by
      obtain ⟨session, user, hs, rfl⟩ := heffect.owner hid
      obtain ⟨t, hcookie, hhash⟩ := hs.cookie
      obtain ⟨s, hs', hhash', haccount⟩ := h.session t (hcarries.session.symm.trans hcookie)
      have hsame : s = session := h.run.unique.eq (t := .sessions) hs' hs.mem
        (by simp [clash, hhash, hhash'])
      rw [haccount, hsame, hs.user_id]
    exact ⟨h.tabs tab htab, h.run.unique, fun c hc hnew => howner _ (.inl ⟨c, hc, hnew, rfl⟩),
      fun c hc hnew => howner _ (.inr ⟨c, hc, hnew, rfl⟩)⟩
  · exact h.submitted p hp

/-- **The invariant holds in every run.** -/
theorem Browses.inv (h : Browses st b es db) : BrowserInv st b es db := by
  induction h with
  | start =>
      refine ⟨.init, fun t ht => ?_, fun tab htab => absurd htab List.not_mem_nil,
        fun p hp => absurd hp List.not_mem_nil⟩
      cases ht
  | elsewhere h hnext ih => exact ih.elsewhere hnext
  | @forget b es db h name ih =>
      refine ⟨ih.run, fun t ht => ih.session t ?_, ih.tabs, ih.submitted⟩
      by_cases hname : Session.sessionCookie = name
      · subst hname
        simp at ht
      · simpa [Function.update_of_ne hname] using ht
  | visit h hnext headers hheaders hcarries hreq hsignIn ih => exact ih.receive hnext hsignIn
  | signIn h hnext headers hheaders hcarries user hsignIn ih => exact ih.signIn hnext hsignIn
  | submit h hnext tab htab headers hcarries decision pairs hform hreq ih =>
      exact ih.submit hnext htab hcarries hreq

end browsing

/-- **A consent form stores for the user on its page exactly when the last session of the browser
is a session of that user.** -/
theorem consent_recorded {st : AppState} {b : Browser} {es : List Event} {db : Db}
    (h : Browses st b es db) : ∀ p ∈ b.submitted,
      (p.account = some p.tab.user.id → p.Faithful st) ∧
      (p.Stores st → p.Faithful st → p.account = some p.tab.user.id) :=
  fun p hp => ⟨(h.inv.submitted p hp).faithful, (h.inv.submitted p hp).account⟩

/-! ### Two users of one browser

The first user signs up and opens a consent page.  Before the form is sent, a second user signs up
in another tab. -/

namespace Sample

/-- The CSRF cookie that the sign-up page sets. -/
def csrfToken : String := "BQUFBQUFBQUFBQUFBQUFBQUFBQUFBQUFBQUFBQUFBQU"

def firstUser : User := { user with id := ⟨6⟩, createdAt := 2000000, updatedAt := 2000000 }

def secondUser : User :=
  { user with id := ⟨15⟩, email := "v@a.example", createdAt := 5000000, updatedAt := 5000000 }

def firstSession : Session := Session.fresh state.toCrates (draws 2) firstUser

def secondSession : Session := Session.fresh state.toCrates (draws 5) secondUser

def firstToken : String := "BgYGBgYGBgYGBgYGBgYGBgYGBgYGBgYGBgYGBgYGBgY"

def secondToken : String := "Dw8PDw8PDw8PDw8PDw8PDw8PDw8PDw8PDw8PDw8PDw8"

/-- The headers of the browser with some session. -/
def cookies (session : String) : HeaderMap :=
  ⟨none, [utf8 ("sharp_session=" ++ session ++ "; sharp_csrf=" ++ csrfToken)]⟩

/-- The headers before the first sign-up. -/
def signUpHeaders : HeaderMap := ⟨none, [utf8 ("sharp_csrf=" ++ csrfToken)]⟩

def application : OAuthClient :=
  client 9 "sharp_client_CQkJCQkJCQkJCQkJCQkJCQkJ" "A" "https://a.example/cb" 3000000

def consentRequest : AuthorizationRequest := { request none with clientId := some application.clientId }

/-- The tables with one user. -/
def oneUser : Db := (Db.init.set .users [firstUser]).set .sessions [firstSession]

def oneUserOneClient : Db := oneUser.set .clients [application]

/-- The tables with both. -/
def twoUsers : Db :=
  (oneUserOneClient.set .users [firstUser, secondUser]).set .sessions
    [{ firstSession with revokedAt := some 5000000 }, secondSession]

def signUpPageEvent : Event := event 1 (.signUpPage ⟨none, []⟩ none) Db.init

def firstSignUp : Event := event 2 (.signUp signUpHeaders
  ⟨"u@a.example", "password", none, none, some csrfToken⟩) Db.init

def registration : Event := event 3 createA oneUser

def consentView : Event :=
  event 4 (.authorize (cookies firstToken) consentRequest.toPairs)
    oneUserOneClient

def secondSignUp : Event := event 5 (.signUp (cookies firstToken)
  ⟨"v@a.example", "password", none, none, some csrfToken⟩) oneUserOneClient

def consentTab : ConsentTab := ⟨csrfToken, firstUser, consentRequest.toPairs⟩

def approvalForm : List (String × String) :=
  [(Csrf.csrfField, csrfToken), ("decision", "approve")] ++ consentRequest.toPairs

/-- The form is sent by the first user, or after the second one has signed up. -/
def firstSubmission : Event :=
  event 5 (.consent (cookies firstToken) approvalForm) oneUserOneClient

def secondSubmission : Event :=
  event 6 (.consent (cookies secondToken) approvalForm) twoUsers

def newBrowser : Browser := ⟨fun _ => none, [], none, []⟩

/-- The browser after the sign-up of the first user. -/
def signedUpBrowser : Browser :=
  { (newBrowser.receive signUpPageEvent).receive firstSignUp with account := some firstUser.id }

/-- The browser with the consent page. -/
def viewing : Browser := signedUpBrowser.receive consentView

def viewings : List Event := [consentView, registration, firstSignUp, signUpPageEvent]

/-- What is known of a redirect. -/
def redirect? (r : Response) : Option (ℕ × String × List String) :=
  match r.body with
  | .redirect location => some (r.status, location, r.setCookie)
  | _ => none

theorem redirect?_eq_some {r : Response} {status : ℕ} {location : String} {cookies : List String}
    (h : redirect? r = some (status, location, cookies)) :
    r = ⟨status, .redirect location, cookies⟩ := by
  obtain ⟨status', body, cookies'⟩ := r
  unfold redirect? at h
  split at h
  · rename_i hbody
    cases h
    rw [show body = _ from hbody]
  · cases h

/-- What the evaluation of a sign-up gives. -/
def signUpFacts (e : Event) (headers : HeaderMap) (email token : String) (db : Db) : Prop :=
  rows (e.after state) = rows db ∧ Csrf.verify headers (some csrfToken) = true ∧
    Account.normalizeEmail state.toCrates email = some email ∧
    state.hashPassword e.draws.salt "password" = .ok passwordHash ∧
    (redirect? e.response = some (303, "/", [CookieManager.set Session.sessionCookie
      (generateToken (e.draws.secret 0)) (some Session.sessionTtl) state.secureCookies])) ∧
    e.token = token

instance (e : Event) (headers : HeaderMap) (email token : String) (db : Db) :
    Decidable (signUpFacts e headers email token db) := by
  unfold signUpFacts
  infer_instance

/-- What the evaluation of the requests gives. -/
class RunFacts : Prop where
  signUpPage : rows (signUpPageEvent.after state) = rows Db.init ∧
    (newBrowser.receive signUpPageEvent).jar Session.sessionCookie = none ∧
    (newBrowser.receive signUpPageEvent).jar Csrf.csrfCookie = some csrfToken
  firstSignUp : signUpFacts firstSignUp signUpHeaders "u@a.example" firstToken oneUser
  registration : rows (registration.after state) = rows oneUserOneClient
  consentView : rows (consentView.after state) = rows oneUserOneClient ∧
    consentView.response.setCookie = [] ∧ consentView.consentTab? = some consentTab
  secondSignUp : signUpFacts secondSignUp (cookies firstToken) "v@a.example" secondToken twoUsers
  secondSubmission : secondSubmission.before.codes = [] ∧
    ((secondSubmission.after state).codes.map (·.userId)) = [secondUser.id]
  tokens : csrfToken = generateToken (Vector.replicate 32 5) ∧
    firstToken = generateToken (Vector.replicate 32 6) ∧
    secondToken = generateToken (Vector.replicate 32 15)
  signUpCookies : CookieManager.get signUpHeaders Session.sessionCookie = none ∧
    CookieManager.get signUpHeaders Csrf.csrfCookie = some csrfToken

instance run_facts : RunFacts := by
  constructor <;> decide +kernel

/-- Both cookies are read. -/
theorem get_cookies {token : String} {bytes : Vector UInt8 32} (h : token = generateToken bytes) :
    CookieManager.get (cookies token) Session.sessionCookie = some token ∧
      CookieManager.get (cookies token) Csrf.csrfCookie = some csrfToken := by
  have hcsrf := run_facts.tokens.1
  have hheaders : cookies token = ⟨none, [utf8 (Session.sessionCookie ++ "=" ++ generateToken bytes ++
      "; " ++ (Csrf.csrfCookie ++ "=" ++ generateToken (Vector.replicate 32 5)))]⟩ := by
    have htext : "sharp_session=" ++ token ++ "; sharp_csrf=" ++ csrfToken =
        Session.sessionCookie ++ "=" ++ token ++ "; " ++ (Csrf.csrfCookie ++ "=" ++ csrfToken) := by
      rw [← String.toList_inj]
      simp [Session.sessionCookie, Csrf.csrfCookie]
    rw [cookies, htext, h, hcsrf]
  rw [h, hcsrf]
  exact CookieManager.get_tokenPairs CookieManager.sessionCookie_chars CookieManager.csrfCookie_chars
    (by decide) none _ _ (h ▸ hheaders)

/-- The cookies of the headers. -/
theorem cookies_facts : CookieManager.get signUpHeaders Session.sessionCookie = none ∧
    CookieManager.get signUpHeaders Csrf.csrfCookie = some csrfToken ∧
    CookieManager.get (cookies firstToken) Session.sessionCookie = some firstToken ∧
    CookieManager.get (cookies firstToken) Csrf.csrfCookie = some csrfToken ∧
    CookieManager.get (cookies secondToken) Session.sessionCookie = some secondToken ∧
    CookieManager.get (cookies secondToken) Csrf.csrfCookie = some csrfToken := by
  obtain ⟨-, hfirst, hsecond⟩ := run_facts.tokens
  have hsignUp := run_facts.signUpCookies
  exact ⟨hsignUp.1, hsignUp.2, (get_cookies hfirst).1, (get_cookies hfirst).2,
    (get_cookies hsecond).1, (get_cookies hsecond).2⟩

theorem after_signUpPage : signUpPageEvent.after state = Db.init := rows_inj run_facts.signUpPage.1

theorem after_firstSignUp : firstSignUp.after state = oneUser := rows_inj run_facts.firstSignUp.1

theorem after_registration : registration.after state = oneUserOneClient :=
  rows_inj run_facts.registration

theorem after_consentView : consentView.after state = oneUserOneClient :=
  rows_inj run_facts.consentView.1

theorem after_secondSignUp : secondSignUp.after state = twoUsers := rows_inj run_facts.secondSignUp.1

theorem Served.cons {n : ℕ} {es : List Event} {db db' : Db} (h : Served n es db) (hn : n < 80)
    {req : Request} (hafter : (event n req db).after state = db') :
    Served (n + 1) (event n req db :: es) db' := h.step hn hafter

theorem served_signUpPage : Served 2 [signUpPageEvent] Db.init :=
  Served.init.cons (by decide) after_signUpPage

theorem served_firstSignUp : Served 3 [firstSignUp, signUpPageEvent] oneUser :=
  served_signUpPage.cons (by decide) after_firstSignUp

theorem served_registration : Served 4 [registration, firstSignUp, signUpPageEvent] oneUserOneClient :=
  served_firstSignUp.cons (by decide) after_registration

theorem served_viewings : Served 5 viewings oneUserOneClient :=
  served_registration.cons (by decide) after_consentView

theorem served_secondSignUp : Served 6 (secondSignUp :: viewings) twoUsers :=
  served_viewings.cons (by decide) after_secondSignUp

/-- An event of the deployment may be the next. -/
theorem Served.next {n : ℕ} {es : List Event} {db : Db} (h : Served n es db) (hn : n < 80)
    (req : Request) : NextEvent state es (event n req db) := ⟨h.fresh hn, rfl⟩

theorem firstUser_signsIn : SignsIn state firstSignUp signUpHeaders firstUser := by
  obtain ⟨-, hcsrf, hemail, hhash, hanswer, -⟩ := run_facts.firstSignUp
  exact .signUp _ rfl hcsrf "u@a.example" passwordHash hemail hhash rfl (redirect?_eq_some hanswer)

theorem secondUser_signsIn : SignsIn state secondSignUp (cookies firstToken) secondUser := by
  obtain ⟨-, hcsrf, hemail, hhash, hanswer, -⟩ := run_facts.secondSignUp
  exact .signUp _ rfl hcsrf "v@a.example" passwordHash hemail hhash rfl (redirect?_eq_some hanswer)

/-- A sign-in changes no other cookie. -/
theorem jar_signIn {e : Event} {headers : HeaderMap} {user : User} (h : SignsIn state e headers user)
    (jar : Jar) : jar.receiveAll e.response Session.sessionCookie = some e.token ∧
      jar.receiveAll e.response Csrf.csrfCookie = jar Csrf.csrfCookie := by
  have hstarted : ∃ returnTo, e.response = Pages.sessionStarted state e.draws returnTo := by
    cases h with
    | signIn form hreq hcsrf hmem hemail hverified hanswer => exact ⟨_, hanswer⟩
    | signUp form hreq hcsrf email hash hemail hhash huser hanswer => exact ⟨_, hanswer⟩
  obtain ⟨returnTo, hresponse⟩ := hstarted
  rw [hresponse]
  refine ⟨Jar.receiveAll_started jar state e.draws returnTo, Jar.receiveAll_other jar ?_⟩
  rintro ⟨header, hmem, hname⟩
  rw [List.mem_singleton.1 hmem, CookieManager.splitOnce_set (by decide)] at hname
  exact absurd (Option.some.inj hname) (by decide)

theorem carries_signUp : Carries signUpHeaders (newBrowser.receive signUpPageEvent).jar :=
  ⟨cookies_facts.1.trans run_facts.signUpPage.2.1.symm,
    cookies_facts.2.1.trans run_facts.signUpPage.2.2.symm⟩

theorem carries_signedUp : Carries (cookies firstToken) signedUpBrowser.jar := by
  have hjar := jar_signIn firstUser_signsIn
    (newBrowser.receive signUpPageEvent).jar
  have htoken : firstSignUp.token = firstToken := run_facts.firstSignUp.2.2.2.2.2
  have hreceived : signedUpBrowser.jar =
      (newBrowser.receive signUpPageEvent).jar.receiveAll
        firstSignUp.response := by
    rw [signedUpBrowser, Browser.receive]
  obtain ⟨-, hbefore, hsession, hafter, -⟩ := cookies_facts
  have hcsrf := hbefore.symm.trans carries_signUp.csrf
  rw [htoken] at hjar
  rw [hreceived]
  exact ⟨hsession.trans hjar.1.symm, hafter.trans (hcsrf.trans hjar.2.symm)⟩

theorem carries_viewing : Carries (cookies firstToken) viewing.jar := by
  have hcookies : consentView.response.setCookie = [] := run_facts.consentView.2.1
  have hjar : viewing.jar = signedUpBrowser.jar := by
    rw [viewing, Browser.receive, Jar.receiveAll, hcookies, List.foldl_nil]
  rw [hjar]
  exact carries_signedUp

/-- The browser after the sign-up of the second user. -/
def switched : Browser := { viewing.receive secondSignUp with account := some secondUser.id }

theorem carries_switched : Carries (cookies secondToken) switched.jar := by
  have hjar := jar_signIn secondUser_signsIn viewing.jar
  have htoken : secondSignUp.token = secondToken := run_facts.secondSignUp.2.2.2.2.2
  have hreceived : switched.jar = viewing.jar.receiveAll secondSignUp.response := by
    rw [switched, Browser.receive]
  obtain ⟨-, -, -, hbefore, hsession, hafter⟩ := cookies_facts
  have hcsrf := hbefore.symm.trans carries_viewing.csrf
  rw [htoken] at hjar
  rw [hreceived]
  exact ⟨hsession.trans hjar.1.symm, hafter.trans (hcsrf.trans hjar.2.symm)⟩

/-- The first user has opened the consent page. -/
theorem browses_viewing : Browses state viewing viewings oneUserOneClient := by
  have hpage : Browses state (newBrowser.receive signUpPageEvent)
      [signUpPageEvent] (signUpPageEvent.after state) := by
    refine .visit .start (Served.init.next (by decide) _) _ rfl ⟨rfl, rfl⟩ ?_ ?_
    · rintro headers pairs ⟨⟩
    · intro headers user h
      rcases h.req with ⟨form, h⟩ | ⟨form, h⟩ <;> cases h
  rw [after_signUpPage] at hpage
  have hsignUp : Browses state signedUpBrowser [firstSignUp, signUpPageEvent]
      (firstSignUp.after state) :=
    .signIn hpage (served_signUpPage.next (by decide) _) _ rfl carries_signUp firstUser firstUser_signsIn
  rw [after_firstSignUp] at hsignUp
  have hregistration : Browses state signedUpBrowser [registration, firstSignUp, signUpPageEvent]
      (registration.after state) := .elsewhere hsignUp (served_firstSignUp.next (by decide) _)
  rw [after_registration] at hregistration
  have hview : Browses state viewing viewings (consentView.after state) := by
    refine .visit hregistration (served_registration.next (by decide) _) _ rfl carries_signedUp ?_ ?_
    · rintro headers pairs ⟨⟩
    · intro headers user h
      rcases h.req with ⟨form, h⟩ | ⟨form, h⟩ <;> cases h
  rw [after_consentView] at hview
  exact hview

theorem consentTab_viewing : consentTab ∈ viewing.tabs := by
  exact List.mem_append_left _ (Option.mem_toList.2 run_facts.consentView.2.2)

/-- The second user has signed up. -/
theorem browses_switched : Browses state switched (secondSignUp :: viewings) twoUsers := by
  have h : Browses state switched (secondSignUp :: viewings) (secondSignUp.after state) :=
    .signIn browses_viewing (served_viewings.next (by decide) _) _ rfl carries_viewing secondUser
      secondUser_signsIn
  rwa [after_secondSignUp] at h

end Sample

/-- The first user sends the form. -/
theorem consent_recorded_first : Submission.Faithful Sample.state
    ⟨Sample.consentTab, some Sample.firstUser.id, Sample.firstSubmission⟩ := by
  have h := Browses.submit (e := Sample.firstSubmission) Sample.browses_viewing
    (Sample.served_viewings.next (by decide) _) _ Sample.consentTab_viewing _ Sample.carries_viewing
    "approve" _ (List.Perm.refl _) rfl
  exact (consent_recorded h _ List.mem_cons_self).1 rfl

/-- **The consent is recorded for the second user, whom the page did not name.** -/
theorem consent_for_other_user : ¬∀ (st : AppState) (b : Browser) (es : List Event) (db : Db),
    Browses st b es db → ∀ p ∈ b.submitted, p.Faithful st := by
  intro hall
  have h := Browses.submit (e := Sample.secondSubmission) Sample.browses_switched
    (Sample.served_secondSignUp.next (by decide) _) Sample.consentTab
    (List.mem_append_right _ Sample.consentTab_viewing) _ Sample.carries_switched
    "approve" Sample.approvalForm (List.Perm.refl _) rfl
  obtain ⟨user, huser, hemail, hcodes, -⟩ := hall _ _ _ _ h _ List.mem_cons_self
  obtain ⟨hnone, hstored⟩ := Sample.run_facts.secondSubmission
  obtain ⟨c, hc, hcuser⟩ : ∃ c ∈ (Sample.secondSubmission.after Sample.state).codes,
      c.userId = Sample.secondUser.id :=
    List.mem_map.1 (hstored ▸ List.mem_singleton_self _)
  have hnew : c ∉ Sample.secondSubmission.before.codes := by simp [hnone]
  have huserId : user.id = Sample.secondUser.id := (hcodes c hc hnew).symm.trans hcuser
  have hfirst : user = Sample.firstUser ∨ user = Sample.secondUser := by
    have husers : user ∈ [Sample.firstUser, Sample.secondUser] := huser
    simpa using husers
  rcases hfirst with rfl | rfl
  · exact absurd huserId (by decide)
  · exact absurd hemail (by decide)

end SharpOauth
