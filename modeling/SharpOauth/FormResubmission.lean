import SharpOauth.AuthorizationSafety
import SharpOauth.TextLines

/-! # Saving an application form unchanged

The page of an application shows its row as a form; the browser sends the form back as pairs, and
saving it changes nothing (`resubmission_unchanged`).

* `Resubmits c pairs`: the pairs a browser sends for the form of `c`, in any order, with line
  breaks of either kind and with other fields in between.
* `AppForm.fromPairs` reads the form out of them again (`Resubmits.fields`).
* The redirect URIs of a row that the portal saved come from the lines of a text area and its
  scopes from a set, so both are in normal form (`Tidy`); that is an invariant of every run.
* Details in normal form that were accepted once are accepted again, as they are
  (`updateDetails_accepted`). -/

namespace SharpOauth

open Client

/-! ### The form as pairs -/

/-- What a browser sends when the form of `c` is submitted as it is shown. -/
def Resubmits (c : OAuthClient) (pairs : List (String × String)) : Prop :=
  ∃ text others, Sent (AppForm.fromClient c).redirectUris.toList (String.toList text) ∧
    (∀ p ∈ others, p.1 ≠ "name" ∧ p.1 ≠ "redirect_uris" ∧ p.1 ≠ "scope") ∧
    pairs.Perm (("name", (AppForm.fromClient c).name) :: ("redirect_uris", text) ::
      ((AppForm.fromClient c).scopes.map fun scope => ("scope", scope)) ++ others)

namespace AppForm

/-- The last value of a field. -/
def lastOf (key default : String) (pairs : List (String × String)) : String :=
  (((pairs.filter fun p => p.1 = key).getLast?).map Prod.snd).getD default

theorem lastOf_cons (key default : String) (p : String × String) (pairs : List (String × String)) :
    lastOf key default (p :: pairs) = lastOf key (if p.1 = key then p.2 else default) pairs := by
  rw [lastOf, lastOf, List.filter_cons]
  by_cases hp : p.1 = key
  · simp only [hp, decide_true, if_true]
    cases hlast : (pairs.filter fun p => p.1 = key).getLast? with
    | none => simp [List.getLast?_eq_none_iff.1 hlast]
    | some q => simp [List.getLast?_cons, hlast]
  · simp [hp]

theorem lastOf_eq {key value default : String} {pairs : List (String × String)}
    (h : pairs.filter (fun p => p.1 = key) = [(key, value)]) : lastOf key default pairs = value := by
  rw [lastOf, h]
  rfl

theorem collect_name (pairs : List (String × String)) : ∀ form : AppForm,
    (form.collect pairs).name = lastOf "name" form.name pairs := by
  induction pairs with
  | nil => exact fun _ => rfl
  | cons p pairs ih =>
      intro form
      obtain ⟨key, value⟩ := p
      rw [collect, ih, lastOf_cons]
      congr 1
      split_ifs <;> simp_all

theorem collect_redirectUris (pairs : List (String × String)) : ∀ form : AppForm,
    (form.collect pairs).redirectUris = lastOf "redirect_uris" form.redirectUris pairs := by
  induction pairs with
  | nil => exact fun _ => rfl
  | cons p pairs ih =>
      intro form
      obtain ⟨key, value⟩ := p
      rw [collect, ih, lastOf_cons]
      congr 1
      split_ifs <;> simp_all

theorem mem_collect_scopes (pairs : List (String × String)) : ∀ (form : AppForm) (x : String),
    x ∈ (form.collect pairs).scopes ↔ x ∈ form.scopes ∨ ("scope", x) ∈ pairs := by
  induction pairs with
  | nil => simp [collect]
  | cons p pairs ih =>
      intro form x
      obtain ⟨key, value⟩ := p
      rw [collect, ih, List.mem_cons, ← or_assoc]
      refine or_congr_left ?_
      split_ifs <;> simp_all

end AppForm

/-! ### Rows in normal form -/

/-- The redirect URIs of the row are items, and its scopes the list of a set. -/
structure OAuthClient.Tidy (c : OAuthClient) : Prop where
  uris_some : c.redirectUris ≠ []
  uris : ∀ uri ∈ c.redirectUris, Item uri
  scopes : ∃ s : ScopeSet, c.allowedScopes = s.toList

section fields

variable {name text : String} {scopes : List String} {others pairs : List (String × String)}

theorem filter_key_of_perm {key value : String}
    (hperm : pairs.Perm (("name", name) :: ("redirect_uris", text) ::
      (scopes.map fun scope => ("scope", scope)) ++ others))
    (hothers : ∀ p ∈ others, p.1 ≠ key)
    (hfields : [("name", name), ("redirect_uris", text)].filter (fun p => p.1 = key) = [(key, value)])
    (hkey : key ≠ "scope") : pairs.filter (fun p => p.1 = key) = [(key, value)] := by
  have hrest : others.filter (fun p => p.1 = key) = [] :=
    List.filter_eq_nil_iff.2 fun p hp => by simpa using hothers p hp
  have hscopes : (scopes.map fun scope => ("scope", scope)).filter (fun p => p.1 = key) = [] := by
    refine List.filter_eq_nil_iff.2 fun p hp => ?_
    obtain ⟨scope, -, rfl⟩ := List.mem_map.1 hp
    simpa using hkey.symm
  have hfilter := hperm.filter fun p => p.1 = key
  rw [List.filter_append, hrest, List.append_nil, List.filter_cons, List.filter_cons, hscopes] at hfilter
  rw [List.filter_cons, List.filter_cons, List.filter_nil] at hfields
  rw [hfields] at hfilter
  exact List.perm_singleton.1 hfilter

end fields

/-- **The form is read back** from what the browser sends. -/
theorem Resubmits.fields {c : OAuthClient} (hc : c.Tidy) {pairs : List (String × String)}
    (h : Resubmits c pairs) : (AppForm.fromPairs pairs).name = c.name ∧
      (AppForm.fromPairs pairs).redirectUriList = c.redirectUris ∧
      (AppForm.fromPairs pairs).scopeSet.toList = c.allowedScopes := by
  obtain ⟨text, others, hsent, hothers, hperm⟩ := h
  refine ⟨?_, ?_, ?_⟩
  · rw [AppForm.fromPairs, AppForm.collect_name]
    exact AppForm.lastOf_eq (filter_key_of_perm hperm (fun p hp => (hothers p hp).1) rfl (by decide))
  · have htext : (AppForm.fromPairs pairs).redirectUris = text := by
      rw [AppForm.fromPairs, AppForm.collect_redirectUris]
      exact AppForm.lastOf_eq
        (filter_key_of_perm hperm (fun p hp => (hothers p hp).2.1) rfl (by decide))
    rw [AppForm.redirectUriList, htext]
    exact itemLines_sent hc.uris_some hc.uris hsent
  · obtain ⟨s, hs⟩ := hc.scopes
    have hset : (AppForm.fromPairs pairs).scopeSet = s := by
      refine ScopeSet.ext_mem fun x => ?_
      rw [AppForm.scopeSet, ScopeSet.mem_ofList, AppForm.fromPairs, AppForm.mem_collect_scopes,
        hperm.mem_iff, ScopeSet.mem_def]
      have hother : ("scope", x) ∉ others := fun hx => (hothers _ hx).2.2 rfl
      have hscopes : (AppForm.fromClient c).scopes = s.names := hs
      simp [hother, hscopes]
    rw [hset, hs]

/-! ### Rows saved in the portal -/

/-- The two requests that save an application form. -/
def Request.SavesApp : Request → Prop
  | .appCreate _ _ | .appUpdate _ _ _ => True
  | _ => False

/-- A request of the portal wrote the row, at its creation or later. -/
def SavedInPortal (st : AppState) (es : List Event) (c : OAuthClient) : Prop :=
  ∃ e ∈ es, e.req.SavesApp ∧ ∃ c' ∈ (e.after st).clients, c'.id = c.id ∧ c' ∉ e.before.clients

/-- The scopes of every row form a set, and a row with an owner is in normal form. -/
def TidyRows (db : Db) : Prop :=
  ∀ c ∈ db.clients, (∃ s : ScopeSet, c.allowedScopes = s.toList) ∧
    (c.ownerUserId ≠ none → ∀ uri ∈ c.redirectUris, Item uri)

theorem mem_of_mem_dedupe {uris : List String} {uri : String} (h : uri ∈ dedupe uris) : uri ∈ uris := by
  have hstep (uris : List String) : ∀ kept : List String,
      uri ∈ uris.foldl (fun kept uri => if uri ∈ kept then kept else kept ++ [uri]) kept →
        uri ∈ kept ∨ uri ∈ uris := by
    induction uris with
    | nil => exact fun kept h => .inl h
    | cons x uris ih =>
        intro kept h
        rw [List.foldl_cons] at h
        cases ih _ h with
        | inl hkept =>
            split_ifs at hkept with hmem
            · exact .inl hkept
            · rw [List.mem_append, List.mem_singleton] at hkept
              cases hkept with
              | inl hkept => exact .inl hkept
              | inr heq => exact .inr (by rw [heq]; exact List.mem_cons_self)
        | inr huris => exact .inr (List.mem_cons_of_mem _ huris)
  exact (hstep uris [] h).resolve_left List.not_mem_nil

/-- Details taken from a form have items as redirect URIs. -/
theorem Client.Accepted.items {cr : Crates} {db : Db} {form : AppForm} {details : ClientDetails}
    {name : String} {scopes : ScopeSet} (h : Accepted cr db ⟨name, form.redirectUriList, scopes⟩ details) :
    ∀ uri ∈ details.redirectUris, Item uri := by
  intro uri huri
  rw [h.redirectUris] at huri
  exact item_of_mem_itemLines (mem_of_mem_dedupe huri)

section step

-- The pages are taken apart without unfolding the text functions.
attribute [local irreducible] trim lines

variable {st : AppState} {d : Draws} {db db' : Db} {req : Request} {headers : HeaderMap}
  {clientId : String} {pairs : List (String × String)}

/-- Saving a form changes nothing, or stores the details of the form. -/
inductive Saved (st : AppState) (d : Draws) (db : Db) (headers : HeaderMap) (clientId : String)
    (pairs : List (String × String)) : Db → Prop where
  | unchanged : Saved st d db headers clientId pairs db
  | stored (session : Session) (user : User) (app : OAuthClient)
      (hm : Manages st d db headers clientId pairs session user app) (details : ClientDetails)
      (hdetails : Accepted st.toCrates db ⟨(AppForm.fromPairs pairs).name,
        (AppForm.fromPairs pairs).redirectUriList, (AppForm.fromPairs pairs).scopeSet⟩ details) :
      Saved st d db headers clientId pairs (db.after (.clientsUpdateDetails app.id details.name
        details.redirectUris details.scopes.toList d.now))

theorem updatePage_saved {flaky : Prop} : (Apps.updatePage st d headers clientId pairs).wp flaky
    (fun _ c => Saved st d db headers clientId pairs c.db) ⟨db, none⟩ := by
  refine signedInUser_wp .unchanged fun session user hs => ?_
  refine ownedApp_wp .unchanged fun app happ => ?_
  simp only [Prog.bind_eq, Prog.pure_eq]
  split_ifs with hcsrf
  · exact .unchanged
  rw [Prog.wp_attempt_bind, Apps.update, Prog.wp_lift]
  refine updateDetails_wp (fun e => ?_) fun details hdetails => ?_
  · cases e <;> first
      | exact .unchanged
      | exact wp_reads (appPage_reads st d headers _ _ _ _) .unchanged
  · exact .stored session user app ⟨hs, happ, by simpa using hcsrf⟩ details hdetails

theorem serve_appUpdate (faults : List Bool) : Saved st d db headers clientId pairs
    (serve st d faults (.appUpdate headers clientId pairs) db).2 := by
  refine Prog.wp_serve (S := Sharp) (R := fun _ db' => Saved st d db headers clientId pairs db') _
    faults db ?_
  rw [respond, orInternalError, Prog.bind_eq, Prog.wp_attempt_bind]
  exact Prog.wp_mono (fun r c h => by cases r <;> exact h) _ _ updatePage_saved

theorem Saved.tidy (h : Saved st d db headers clientId pairs db') (hrows : TidyRows db) :
    TidyRows db' := by
  cases h with
  | unchanged => exact hrows
  | stored session user app hm details hdetails =>
      intro c' hc'
      rw [Db.after_clientsUpdateDetails] at hc'
      obtain ⟨c, hc, rfl⟩ := List.mem_map.1 hc'
      split_ifs with hid
      · exact ⟨⟨details.scopes, rfl⟩, fun _ => hdetails.items⟩
      · exact hrows c hc

/-- One request to the registries keeps the rows tidy. -/
theorem RegistryEffect.tidy (h : RegistryEffect st d db req db') (hrows : TidyRows db)
    (hupdate : ∀ headers clientId pairs, req = .appUpdate headers clientId pairs → TidyRows db') :
    TidyRows db' := by
  cases h with
  | unchanged => exact hrows
  | scopeAdded scope =>
      rw [TidyRows, Db.clients, db.after_of_writes (by simp [Stmt.writes])]
      exact hrows
  | registered req new hnew details hdetails hinsert =>
      intro c hc
      rw [after_clientsInsert_ok hinsert, List.mem_append, List.mem_singleton] at hc
      cases hc with
      | inl hc => exact hrows c hc
      | inr hc =>
          rw [hc]
          refine ⟨⟨details.scopes, rfl⟩, fun howner => ?_⟩
          cases hnew with
          | commandLine => exact absurd rfl howner
          | portal headers pairs session user hs hcsrf hcount => exact hdetails.items
  | updated headers clientId pairs session user app hm raw details hdetails =>
      exact hupdate headers clientId pairs rfl
  | rotated headers clientId pairs session user app hm hconfidential =>
      intro c' hc'
      rw [Db.after_clientsUpdateSecretHash] at hc'
      obtain ⟨c, hc, rfl⟩ := List.mem_map.1 hc'
      split_ifs
      · exact hrows c hc
      · exact hrows c hc
  | deleted headers clientId pairs session user app hm =>
      cases db.after_clientsDelete app.id with
      | inl hafter =>
          rw [hafter]
          exact hrows
      | inr hafter =>
          intro c hc
          rw [(deleteClient_clients hafter).1] at hc
          exact hrows c (List.mem_filter.1 hc).1

/-- A row that such a request wrote has an owner. -/
theorem RegistryEffect.owner_of_saved (h : RegistryEffect st d db req db') (hu : db.Unique)
    (hreq : req.SavesApp) {c : OAuthClient} (hc : c ∈ db'.clients) (hnew : c ∉ db.clients) : c.ownerUserId ≠ none := by
  cases h with
  | unchanged => exact absurd hc hnew
  | scopeAdded scope => exact hreq.elim
  | registered req new hregistration details hdetails hinsert =>
      rw [after_clientsInsert_ok hinsert, List.mem_append, List.mem_singleton] at hc
      rw [hc.resolve_left hnew]
      cases hregistration with
      | commandLine => exact hreq.elim
      | portal headers pairs session user hs hcsrf hcount => exact Option.some_ne_none _
  | updated headers clientId pairs session user app hm raw details hdetails =>
      rw [Db.after_clientsUpdateDetails] at hc
      obtain ⟨c₀, hc₀, rfl⟩ := List.mem_map.1 hc
      split_ifs at hnew ⊢ with hid
      · have happ : c₀ = app := hu.eq (t := .clients) hc₀ hm.owned.mem (by simp [clash, hid])
        rw [happ, hm.owned.owner]
        exact Option.some_ne_none _
      · exact absurd hc₀ hnew
  | rotated headers clientId pairs session user app hm hconfidential => exact hreq.elim
  | deleted headers clientId pairs session user app hm => exact hreq.elim

end step

section runs

variable {st : AppState} {es later earlier : List Event} {e : Event} {db : Db} {c : OAuthClient}

theorem Event.tidy (e : Event) (h : TidyRows e.before) : TidyRows (e.after st) := by
  cases e.registryEffect st with
  | inl heffect =>
      refine heffect.tidy h fun headers clientId pairs hreq => ?_
      rw [Event.after, hreq]
      exact (serve_appUpdate e.faults).tidy h
  | inr hsame =>
      rw [TidyRows, hsame.1]
      exact h

/-- **Rows stay in normal form** over a run. -/
theorem Run.tidyRows (run : Run st es db) : TidyRows db := by
  induction run with
  | init => exact fun c hc => absurd hc List.not_mem_nil
  | @step es db run req d faults fresh ih =>
      exact Event.tidy ⟨req, d, faults, db, (serve st d faults req db).1⟩ ih

/-- A row that the portal wrote has an owner. -/
theorem Run.owner_of_saved (run : Run st es db) (hc : c ∈ db.clients)
    (hsaved : SavedInPortal st es c) : c.ownerUserId ≠ none := by
  obtain ⟨e, he, hreq, c', hc', hid, hnew⟩ := hsaved
  obtain ⟨later, earlier, rfl⟩ := List.append_of_mem he
  have howner : c'.ownerUserId ≠ none := by
    obtain ⟨db', hupTo⟩ := run.upTo
    cases e.registryEffect st with
    | inl heffect => exact heffect.owner_of_saved hupTo.cons.1.unique hreq hc' hnew
    | inr hsame =>
        rw [hsame.1] at hc'
        exact absurd hc' hnew
  have hsame : SameClient c' c := by
    cases List.eq_nil_or_concat later with
    | inl hnil =>
        subst hnil
        have hdb : db = e.after st := run.cons.2.2.2
        subst hdb
        have heq : c' = c := run.unique.eq (t := .clients) hc' hc (by simp [clash, hid])
        rw [heq]
        exact .refl c
    | inr hconcat =>
        obtain ⟨later', x, rfl⟩ := hconcat
        have hrun : Run st (later' ++ x :: (e :: earlier)) db := by simpa using run
        obtain ⟨db', hupTo⟩ := hrun.upTo
        have hbefore : x.before = e.after st := hupTo.cons.1.cons.2.2.2
        exact hrun.sameClient (hbefore ▸ hc') hc hid.symm
  rw [hsame.owner]
  exact howner

end runs

/-! ### Saving again -/

section accepted

variable {cr : Crates} {d : Draws} {db : Db}

attribute [local irreducible] trim

theorem valid_of_acceptable {uri : String} {url : Url} (h : AcceptableUri cr uri url) :
    validateRedirectUriForRegistration cr uri = .ok () := by
  unfold validateRedirectUriForRegistration
  rw [h.parses]
  dsimp only
  rw [if_neg (by simp [h.noFragment]), if_neg (by simp [h.noUsername, h.noPassword])]
  cases h.scheme with
  | inl hhttps => rw [if_pos hhttps]
  | inr hhttp =>
      rw [if_neg (by simp [hhttp.1]), if_pos ⟨hhttp.1, isLoopbackHost_iff.2 hhttp.2⟩]

theorem validateRedirectUris_of_acceptable {uris : List String}
    (h : ∀ uri ∈ uris, ∃ url, AcceptableUri cr uri url) : validateRedirectUris cr uris = .ok () := by
  induction uris with
  | nil => rfl
  | cons uri uris ih =>
      obtain ⟨url, hurl⟩ := h uri List.mem_cons_self
      rw [validateRedirectUris, valid_of_acceptable hurl]
      exact ih fun x hx => h x (List.mem_cons_of_mem _ hx)

theorem dedupe_of_nodup {uris : List String} (h : uris.Nodup) : dedupe uris = uris := by
  have hstep (uris : List String) : ∀ kept : List String, (kept ++ uris).Nodup →
      uris.foldl (fun kept uri => if uri ∈ kept then kept else kept ++ [uri]) kept = kept ++ uris := by
    induction uris with
    | nil => exact fun kept _ => (List.append_nil kept).symm
    | cons x uris ih =>
        intro kept hkept
        have hx : x ∉ kept := fun hx =>
          (List.nodup_append.1 hkept).2.2 x hx x List.mem_cons_self rfl
        rw [List.foldl_cons, if_neg hx, ih _ (by simpa using hkept), List.append_assoc]
        rfl
  exact hstep uris [] h

/-- Details in normal form that the registry knows are accepted, as they are. -/
theorem updateDetails_accepted {flaky : Prop} (hflaky : ¬flaky)
    {Q : Except RegistrationError Unit → Conn Sharp → Prop} {client : OAuthClient}
    {raw : ClientDetails} (h : Accepted cr db raw raw)
    (hok : Q (.ok ()) ⟨db.after (.clientsUpdateDetails client.id raw.name raw.redirectUris
      raw.scopes.toList d.now), none⟩) :
    (updateDetails cr d client raw).wp flaky Q ⟨db, none⟩ := by
  simp only [updateDetails, validateDetails, Prog.bind_eq, Prog.pure_eq, ← h.name, ← h.redirectUris]
  rw [wp_refuse]
  refine ⟨fun hempty => absurd hempty h.nonempty, fun _ => ?_⟩
  rw [wp_refuse]
  refine ⟨fun hlong => absurd h.short (not_le.2 hlong), fun _ => ?_⟩
  rw [wp_refuse]
  refine ⟨fun hnone => absurd hnone h.some, fun _ => ?_⟩
  rw [wp_refuse]
  refine ⟨fun hmany => absurd h.few (not_le.2 hmany), fun _ => ?_⟩
  rw [h.valid, Prog.ofExcept_ok, Prog.ret_bind, wp_refuse]
  refine ⟨fun hnone => absurd hnone h.requested, fun _ => ?_⟩
  rw [Prog.bind_assoc, wp_query_auto]
  refine ⟨fun hfault => absurd hfault hflaky, fun known hknown => ?_, by rintro e ⟨⟩⟩
  rw [db.after_of_reads rfl, wp_refuse]
  refine ⟨fun hunknown => absurd (List.filter_eq_nil_iff.2 fun x hx => ?_) hunknown, fun _ => ?_⟩
  · obtain rfl := Except.ok.inj hknown
    obtain ⟨s, hs, hname⟩ := h.known x hx
    have hmem : s ∈ (db.scopes.filter fun r => r.name ∈ raw.scopes.toList).insertionSort
        fun a b => a.name ≤ b.name := by
      rw [(List.perm_insertionSort _ _).mem_iff, List.mem_filter]
      exact ⟨hs, by simpa [hname] using hx⟩
    intro hnot
    rw [Bool.not_eq_true'] at hnot
    exact Bool.false_ne_true (hnot.symm.trans (List.any_eq_true.2 ⟨s, hmem, beq_iff_eq.2 hname⟩))
  · rw [Prog.ret_bind, ← Prog.bind_ret (query _), wp_query_auto]
    exact ⟨fun hfault => absurd hfault hflaky, fun _ _ => hok, by rintro e ⟨⟩⟩

end accepted

section resubmission

attribute [local irreducible] trim lines

variable {st : AppState} {es : List Event} {db : Db} {c : OAuthClient}

/-- The details of a tidy row would be accepted again. -/
theorem OAuthClient.WellFormed.accepted {cr : Crates} {scopes : ScopeSet}
    (h : c.WellFormed cr db.scopes) (hscopes : c.allowedScopes = scopes.toList) :
    Accepted cr db ⟨c.name, c.redirectUris, scopes⟩ ⟨c.name, c.redirectUris, scopes⟩ where
  name := h.name_trimmed.symm
  nonempty := h.name_nonempty
  short := h.name_short
  redirectUris := (dedupe_of_nodup h.uris_nodup).symm
  some := List.length_pos_iff.1 h.uris_some
  few := h.uris_few
  valid := validateRedirectUris_of_acceptable h.uris
  scopes := rfl
  requested := hscopes ▸ h.scopes_some
  known := fun x hx => h.scopes_known x (by rw [hscopes]; exact hx)

theorem Run.tidy (run : Run st es db) (hc : c ∈ db.clients) (hsaved : SavedInPortal st es c) :
    c.Tidy :=
  ⟨List.length_pos_iff.1 (run.registryInv.rows c hc).uris_some,
    (run.tidyRows c hc).2 (run.owner_of_saved hc hsaved), (run.tidyRows c hc).1⟩

/-- **Saving an application form unchanged changes nothing**: for a row that the portal wrote,
sending its form back is accepted and leaves every row as it was, but for the time of the update. -/
theorem resubmission_unchanged (run : Run st es db) (hc : c ∈ db.clients)
    (hsaved : SavedInPortal st es c) {pairs : List (String × String)} (hpairs : Resubmits c pairs)
    (d : Draws) {faults : List Bool} (hfaults : true ∉ faults) :
    ((Apps.update st.toCrates d c (AppForm.fromPairs pairs)).serve faults db).1 = .ok () ∧
    Db.clients ((Apps.update st.toCrates d c (AppForm.fromPairs pairs)).serve faults db).2 =
      db.clients.map fun r => if r.id = c.id then { c with updatedAt := d.now } else r := by
  have htidy := run.tidy hc hsaved
  obtain ⟨hname, huris, hscopes⟩ := hpairs.fields htidy
  have haccepted := (run.registryInv.rows c hc).accepted hscopes.symm
  have hupdate : ((Apps.update st.toCrates d c (AppForm.fromPairs pairs)).serve faults db).1 = .ok () ∧
      ((Apps.update st.toCrates d c (AppForm.fromPairs pairs)).serve faults db).2 =
        db.after (.clientsUpdateDetails c.id c.name c.redirectUris c.allowedScopes d.now) := by
    refine Prog.wp_serve (S := Sharp) (R := fun r db' => r = .ok () ∧ db' = db.after
      (.clientsUpdateDetails c.id c.name c.redirectUris c.allowedScopes d.now)) _ faults db ?_
    rw [Apps.update, Prog.wp_lift, hname, huris]
    refine updateDetails_accepted hfaults haccepted ⟨rfl, ?_⟩
    rw [hscopes]
  refine ⟨hupdate.1, ?_⟩
  rw [hupdate.2, Db.after_clientsUpdateDetails]
  refine List.map_congr_left fun r hr => ?_
  split_ifs with hid
  · have hrc : r = c := run.unique.eq (t := .clients) hr hc (by simp [clash, hid])
    rw [hrc]
  · rfl

end resubmission

/-! ### An application -/

namespace Sample

/-- An application of the user, created in the portal. -/
def portalApp : OAuthClient :=
  { client 6 "sharp_client_BgYGBgYGBgYGBgYGBgYGBgYG" "My app" "https://a.example/cb" 2000000 with
    redirectUris := ["https://a.example/cb", "https://b.example/cb"]
    ownerUserId := some ⟨3⟩ }

def createApp : Request := .appCreate signedInBrowser [("csrf_token", "x"), ("name", " My app "),
  ("redirect_uris", "https://a.example/cb\r\n\r\n https://b.example/cb\r\n"), ("scope", "openid"),
  ("scope", "offline_access"), ("client_type", "public")]

def inPortal : Db := signedUp.set .clients [portalApp]

theorem serve_createApp : (serve state (draws 2) [] createApp signedUp).2 = inPortal :=
  rows_inj (by decide +kernel)

def portalEvents : List Event := [event 2 createApp signedUp, event 1 signUp Db.init]

theorem served_inPortal : Served 3 portalEvents inPortal :=
  (Served.init.step (by decide) serve_signUp).step (by decide) serve_createApp

theorem savedInPortal : SavedInPortal state portalEvents portalApp := by
  refine ⟨event 2 createApp signedUp, List.mem_cons_self, trivial, portalApp, ?_, rfl, ?_⟩
  · have hafter : (event 2 createApp signedUp).after state = inPortal := serve_createApp
    rw [hafter]
    exact List.mem_singleton_self _
  · exact List.not_mem_nil

/-- The form of the application, as a browser sends it. -/
def resubmitted : List (String × String) := [("csrf_token", "x"), ("scope", "openid"),
  ("name", "My app"), ("redirect_uris", "https://a.example/cb\r\nhttps://b.example/cb"),
  ("scope", "offline_access")]

theorem resubmits : Resubmits portalApp resubmitted := by
  refine ⟨"https://a.example/cb\r\nhttps://b.example/cb", [("csrf_token", "x")], ?_, by decide,
    by decide⟩
  have hsent : Sent ("https://a.example/cb".toList ++ '\n' :: ("https://b.example/cb".toList ++ []))
      ("https://a.example/cb".toList ++ '\r' :: '\n' :: ("https://b.example/cb".toList ++ [])) :=
    .line (by decide) (.crlf (.line (by decide) .nil))
  simpa [AppForm.fromClient, portalApp, client] using hsent

end Sample

/-- The form of an application is sent back, ten seconds later. -/
theorem resubmission_unchanged_inPortal :
    ((Apps.update Sample.state.toCrates (Sample.draws 12) Sample.portalApp
      (AppForm.fromPairs Sample.resubmitted)).serve [] Sample.inPortal).1 = .ok () :=
  (resubmission_unchanged Sample.served_inPortal.run (List.mem_singleton_self Sample.portalApp)
    Sample.savedInPortal Sample.resubmits (Sample.draws 12) List.not_mem_nil).1

end SharpOauth
