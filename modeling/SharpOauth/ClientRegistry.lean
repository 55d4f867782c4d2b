import SharpOauth.RegistryEffects

/-! # The client registry

Every row of `oauth_clients` that a run leads to is well formed (`OAuthClient.WellFormed`): it
was checked by `validateDetails` when it was written, on the command line or in the portal,
and the scope registry only grows.  A row keeps its identity for life (`SameClient`), and a
user never owns more than 25.

`Event.client_row` says where a row comes from, and `RegistryInv.step` what one request
preserves. -/

namespace SharpOauth

open Client

/-! ### Names -/

theorem dropWhile_prefix {α : Type} {p : α → Bool} {l m : List α} (h : m <+: l.dropWhile p) :
    m.dropWhile p = m := by
  cases m with
  | nil => rfl
  | cons x m =>
      obtain ⟨rest, hrest⟩ := h
      have hx : ¬p x = true := by
        have hhead := List.head_dropWhile_not p (l := l) (by rw [← hrest]; simp)
        simp only [← hrest, List.cons_append, List.head_cons] at hhead
        simpa using hhead
      rw [List.dropWhile_cons_of_neg hx]

/-- A trimmed text stays as it is. -/
theorem trim_trim (s : String) : trim (trim s) = trim s := by
  have htrim (s : String) :
      trim s = String.ofList ((s.toList.dropWhile isWhitespace).rdropWhile isWhitespace) := rfl
  rw [htrim (trim s), htrim s, String.toList_ofList,
    dropWhile_prefix (List.rdropWhile_prefix isWhitespace (s.toList.dropWhile isWhitespace)),
    List.rdropWhile_idempotent]

/-! ### Redirect URIs -/

/-- `localhost`, an address in `127.0.0.0/8`, or `::1` -/
def Host.Loopback : Host → Prop
  | .domain name => name = "localhost"
  | .ipv4 address => address.toNat / 2 ^ 24 = 127
  | .ipv6 address => address = 1

/-- A redirect URI that may be registered. -/
structure AcceptableUri (cr : Crates) (uri : String) (url : Url) : Prop where
  parses : cr.parseUrl uri = some url
  scheme : url.scheme = "https" ∨ url.scheme = "http" ∧ ∃ host, url.host = some host ∧ host.Loopback
  noFragment : url.fragment = none
  noUsername : url.username = ""
  noPassword : url.password = none

theorem isLoopbackHost_iff {url : Url} :
    isLoopbackHost url = true ↔ ∃ host, url.host = some host ∧ host.Loopback := by
  unfold isLoopbackHost
  cases hhost : url.host with
  | none => simp
  | some host => cases host <;> simp [Host.Loopback]

theorem acceptable_of_valid {cr : Crates} {uri : String}
    (h : validateRedirectUriForRegistration cr uri = .ok ()) : ∃ url, AcceptableUri cr uri url := by
  unfold validateRedirectUriForRegistration at h
  cases hparse : cr.parseUrl uri with
  | none =>
      rw [hparse] at h
      cases h
  | some url =>
      rw [hparse] at h
      dsimp only at h
      split_ifs at h with hfragment hcredentials hhttps hhttp
      all_goals
        rw [not_or, not_not] at hcredentials
        have hplain : url.fragment = none ∧ url.username = "" ∧ url.password = none :=
          ⟨by simpa using hfragment, hcredentials.1, by simpa using hcredentials.2⟩
      · exact ⟨url, hparse, .inl hhttps, hplain.1, hplain.2.1, hplain.2.2⟩
      · refine ⟨url, hparse, .inr ⟨hhttp.1, ?_⟩, hplain.1, hplain.2.1, hplain.2.2⟩
        exact isLoopbackHost_iff.1 hhttp.2

theorem validateRedirectUris_ok {cr : Crates} {uris : List String}
    (h : validateRedirectUris cr uris = .ok ()) : ∀ uri ∈ uris, ∃ url, AcceptableUri cr uri url := by
  induction uris with
  | nil => exact fun uri huri => absurd huri List.not_mem_nil
  | cons uri uris ih =>
      rw [validateRedirectUris] at h
      cases hvalid : validateRedirectUriForRegistration cr uri with
      | error reason =>
          rw [hvalid] at h
          cases h
      | ok _ =>
          rw [hvalid] at h
          intro uri' huri'
          rcases List.mem_cons.1 huri' with rfl | huri'
          · exact acceptable_of_valid hvalid
          · exact ih h uri' huri'

theorem dedupe_nodup (uris : List String) : (dedupe uris).Nodup := by
  have hstep (uris : List String) : ∀ kept : List String, kept.Nodup →
      (uris.foldl (fun kept uri => if uri ∈ kept then kept else kept ++ [uri]) kept).Nodup := by
    induction uris with
    | nil => exact fun kept hkept => hkept
    | cons uri uris ih =>
        intro kept hkept
        rw [List.foldl_cons]
        refine ih _ ?_
        split_ifs with hmem
        · exact hkept
        · exact List.nodup_append.2 ⟨hkept, List.nodup_singleton uri,
            fun x hx y hy hxy => hmem (by rw [← List.mem_singleton.1 hy, ← hxy]; exact hx)⟩
  exact hstep uris [] List.nodup_nil

/-! ### Rows -/

/-- What every client row satisfies. -/
structure OAuthClient.WellFormed (cr : Crates) (scopes : List ScopeDescription) (c : OAuthClient) :
    Prop where
  name_trimmed : trim c.name = c.name
  name_nonempty : c.name ≠ ""
  name_short : c.name.toList.length ≤ 80
  uris_some : 1 ≤ c.redirectUris.length
  uris_few : c.redirectUris.length ≤ 10
  uris_nodup : c.redirectUris.Nodup
  uris : ∀ uri ∈ c.redirectUris, ∃ url, AcceptableUri cr uri url
  scopes_some : c.allowedScopes ≠ []
  scopes_nodup : c.allowedScopes.Nodup
  scopes_known : ∀ x ∈ c.allowedScopes, ∃ s ∈ scopes, s.name = x

/-- The columns that never change. -/
structure SameClient (c c' : OAuthClient) : Prop where
  id : c'.id = c.id
  clientId : c'.clientId = c.clientId
  owner : c'.ownerUserId = c.ownerUserId
  confidential : c'.isConfidential = c.isConfidential

theorem SameClient.refl (c : OAuthClient) : SameClient c c := ⟨rfl, rfl, rfl, rfl⟩

theorem SameClient.trans {a b c : OAuthClient} (h : SameClient a b) (h' : SameClient b c) :
    SameClient a c :=
  ⟨h'.id.trans h.id, h'.clientId.trans h.clientId, h'.owner.trans h.owner,
    h'.confidential.trans h.confidential⟩

/-- Accepted details make a well-formed row. -/
theorem Client.Accepted.wellFormed {cr : Crates} {db : Db} {raw details : ClientDetails}
    (h : Accepted cr db raw details) {c : OAuthClient} (hname : c.name = details.name)
    (huris : c.redirectUris = details.redirectUris) (hscopes : c.allowedScopes = details.scopes.toList) :
    c.WellFormed cr db.scopes where
  name_trimmed := by rw [hname, h.name, trim_trim]
  name_nonempty := hname ▸ h.nonempty
  name_short := hname ▸ h.short
  uris_some := huris ▸ List.length_pos_iff.2 h.some
  uris_few := huris ▸ h.few
  uris_nodup := by
    rw [huris, h.redirectUris]
    exact dedupe_nodup _
  uris := huris ▸ validateRedirectUris_ok h.valid
  scopes_some := hscopes ▸ h.requested
  scopes_nodup := by
    rw [hscopes]
    exact details.scopes.sorted.imp fun hlt => hlt.ne
  scopes_known := hscopes ▸ h.known

theorem OAuthClient.WellFormed.mono {cr : Crates} {scopes scopes' : List ScopeDescription}
    {c : OAuthClient} (h : c.WellFormed cr scopes) (hscopes : scopes ⊆ scopes') :
    c.WellFormed cr scopes' :=
  { h with
    scopes_known := fun x hx => by
      obtain ⟨s, hs, hname⟩ := h.scopes_known x hx
      exact ⟨s, hscopes hs, hname⟩ }

/-! ### One request -/

section step

variable {st : AppState} {d : Draws} {db db' : Db} {req : Request}

/-- The other requests leave both registries alone. -/
theorem Event.registryEffect (st : AppState) (e : Event) :
    RegistryEffect st e.draws e.before e.req (e.after st) ∨
      ((e.after st).clients = e.before.clients ∧ (e.after st).scopes = e.before.scopes) := by
  have heffect := e.effect st
  have hregistry (hreq : e.req.Registers) :
      RegistryEffect st e.draws e.before e.req (e.after st) :=
    serve_registry st e.draws e.faults hreq e.before
  generalize e.after st = db' at heffect hregistry ⊢
  generalize e.req = req at heffect hregistry ⊢
  generalize e.answer st = answer at heffect
  cases heffect with
  | authorize headers pairs r db' h => exact .inr ⟨h.frame (by decide), h.frame (by decide)⟩
  | consent headers pairs r db' h =>
      exact .inr ⟨h.frame (by decide) (by decide), h.frame (by decide) (by decide)⟩
  | token headers pairs r db' h =>
      exact .inr ⟨h.frame (by decide) (by decide), h.frame (by decide) (by decide)⟩
  | revoke headers pairs r db' h => exact .inr ⟨h.frame (by decide), h.frame (by decide)⟩
  | notAForm => exact .inr ⟨rfl, rfl⟩
  | account req r db' h =>
      exact .inr ⟨h.frame (by decide) (by decide), h.frame (by decide) (by decide)⟩
  | registry req hreq r db' h => exact .inl (hregistry hreq)

/-- The scope registry only grows. -/
theorem RegistryEffect.scopes_subset (h : RegistryEffect st d db req db') :
    db.scopes ⊆ db'.scopes := by
  have hkept {q : Stmt} (hq : .scopes ∉ q.writes) : db.scopes ⊆ (db.after q).scopes := by
    rw [Db.scopes, Db.scopes, db.after_of_writes hq]
    exact List.Subset.refl _
  cases h with
  | unchanged => exact List.Subset.refl _
  | scopeAdded scope =>
      rw [Db.scopes, Db.scopes, Db.after, sem, Sql.exec]
      split_ifs
      · exact List.Subset.refl _
      · dsimp only
        rw [Store.set_same]
        exact List.subset_append_left _ _
  | registered => exact hkept (by simp [Stmt.writes])
  | updated => exact hkept (by simp [Stmt.writes])
  | rotated => exact hkept (by simp [Stmt.writes])
  | deleted => exact hkept (by simp [Stmt.writes])

theorem after_clientsInsert_ok {client : OAuthClient} {u : Unit}
    (h : db.result (.clientsInsert client) = .ok u) :
    (db.after (.clientsInsert client)).clients = db.clients ++ [client] := by
  rw [Db.result, sem, Sql.exec] at h
  split_ifs at h with hclash
  rw [Db.clients, Db.after, sem, Sql.exec, if_neg hclash]
  exact Store.set_same db .clients _

/-- **Where a client row comes from.** -/
theorem RegistryEffect.client_row (h : RegistryEffect st d db req db') (hu : db.Unique) :
    ∀ c' ∈ db'.clients, (∃ c ∈ db.clients, SameClient c c') ∨ c'.id = d.uuid 0 := by
  have hkept {q : Stmt} (hq : .clients ∉ q.writes) : ∀ c' ∈ (db.after q).clients,
      (∃ c ∈ db.clients, SameClient c c') ∨ c'.id = d.uuid 0 := by
    rw [Db.clients, db.after_of_writes hq]
    exact fun c' hc' => .inl ⟨c', hc', .refl c'⟩
  cases h with
  | unchanged => exact fun c' hc' => .inl ⟨c', hc', .refl c'⟩
  | scopeAdded => exact hkept (by simp [Stmt.writes])
  | registered req new hnew details hdetails hinsert =>
      intro c' hc'
      rw [after_clientsInsert_ok hinsert] at hc'
      rcases List.mem_append.1 hc' with hc' | hc'
      · exact .inl ⟨c', hc', .refl c'⟩
      · rw [List.mem_singleton.1 hc']
        exact .inr rfl
  | updated headers clientId pairs session user app hm raw details hdetails =>
      intro c' hc'
      rw [Db.after_clientsUpdateDetails] at hc'
      obtain ⟨c, hc, rfl⟩ := List.mem_map.1 hc'
      refine .inl ⟨c, hc, ?_⟩
      split_ifs <;> exact ⟨rfl, rfl, rfl, rfl⟩
  | rotated headers clientId pairs session user app hm hconfidential =>
      intro c' hc'
      rw [Db.after_clientsUpdateSecretHash] at hc'
      obtain ⟨c, hc, rfl⟩ := List.mem_map.1 hc'
      refine .inl ⟨c, hc, ?_⟩
      split_ifs with hid
      · -- Only confidential clients get a new secret.
        have hc : c = app := hu.eq (t := .clients) hc hm.owned.mem (by simp [clash, hid])
        exact ⟨rfl, rfl, rfl, by rw [hc, hconfidential]; rfl⟩
      · exact .refl c
  | deleted headers clientId pairs session user app hm =>
      intro c' hc'
      rcases db.after_clientsDelete app.id with hafter | hafter
      · rw [hafter] at hc'
        exact .inl ⟨c', hc', .refl c'⟩
      · rw [(deleteClient_clients hafter).1] at hc'
        exact .inl ⟨c', (List.mem_filter.1 hc').1, .refl c'⟩

theorem Event.client_row (e : Event) (hu : e.before.Unique) : ∀ c' ∈ (e.after st).clients,
    (∃ c ∈ e.before.clients, SameClient c c') ∨ c'.id = e.draws.uuid 0 := by
  rcases e.registryEffect st with h | ⟨h, -⟩
  · exact h.client_row hu
  · rw [h]
    exact fun c' hc' => .inl ⟨c', hc', .refl c'⟩

/-! ### The invariant -/

/-- The number of clients a user owns. -/
def Db.ownedBy (db : Db) (owner : Uuid) : ℕ := db.clients.countP fun c => c.ownerUserId = some owner

/-- The invariant of the registry. -/
structure RegistryInv (cr : Crates) (db : Db) : Prop where
  rows : ∀ c ∈ db.clients, c.WellFormed cr db.scopes
  limit : ∀ owner, db.ownedBy owner ≤ 25

/-- Replacing rows by rows of the same owner changes no count. -/
theorem countP_owner_map (rows : List OAuthClient) (owner : Uuid) {f : OAuthClient → OAuthClient}
    (hf : ∀ c, (f c).ownerUserId = c.ownerUserId) :
    (rows.map f).countP (fun c => c.ownerUserId = some owner) =
      rows.countP fun c => c.ownerUserId = some owner := by
  rw [List.countP_map]
  exact List.countP_congr fun c _ => by simp [hf]

/-- **What one request to the registries preserves.** -/
theorem RegistryInv.effect (h : RegistryInv st.toCrates db) (he : RegistryEffect st d db req db') :
    RegistryInv st.toCrates db' := by
  have hscopes := he.scopes_subset
  have hmono : ∀ c ∈ db.clients, c.WellFormed st.toCrates db'.scopes :=
    fun c hc => (h.rows c hc).mono hscopes
  cases he with
  | unchanged => exact h
  | scopeAdded scope =>
      have hclients : (db.after (.scopesInsert scope)).clients = db.clients :=
        db.after_of_writes (by simp [Stmt.writes])
      refine ⟨by rw [hclients]; exact hmono, fun owner => ?_⟩
      rw [Db.ownedBy, hclients]
      exact h.limit owner
  | registered req new hnew details hdetails hinsert =>
      have hclients := after_clientsInsert_ok hinsert
      refine ⟨fun c hc => ?_, fun owner => ?_⟩
      · rw [hclients] at hc
        rcases List.mem_append.1 hc with hc | hc
        · exact hmono c hc
        · rw [List.mem_singleton.1 hc]
          exact (hdetails.wellFormed rfl rfl rfl).mono hscopes
      · have hcount : db.ownedBy owner + (if new.ownerUserId = some owner then 1 else 0) ≤ 25 := by
          have hlimit := h.limit owner
          cases hnew with
          | commandLine => simpa using hlimit
          | portal headers pairs session user hs hcsrf hcount =>
              split_ifs with howner
              · rw [Option.some.inj howner] at hcount
                exact hcount
              · exact hlimit
        rw [Db.ownedBy, hclients, List.countP_append, List.countP_singleton]
        simpa [newRow, Db.ownedBy] using hcount
  | updated headers clientId pairs session user app hm raw details hdetails =>
      refine ⟨fun c' hc' => ?_, fun owner => ?_⟩
      · rw [Db.after_clientsUpdateDetails] at hc'
        obtain ⟨c, hc, rfl⟩ := List.mem_map.1 hc'
        split_ifs with hid
        · exact (hdetails.wellFormed rfl rfl rfl).mono hscopes
        · exact hmono c hc
      · rw [Db.ownedBy, Db.after_clientsUpdateDetails, countP_owner_map _ _ fun c => by split_ifs <;> rfl]
        exact h.limit owner
  | rotated headers clientId pairs session user app hm hconfidential =>
      refine ⟨fun c' hc' => ?_, fun owner => ?_⟩
      · rw [Db.after_clientsUpdateSecretHash] at hc'
        obtain ⟨c, hc, rfl⟩ := List.mem_map.1 hc'
        have hc := hmono c hc
        split_ifs with hid
        · exact ⟨hc.1, hc.2, hc.3, hc.4, hc.5, hc.6, hc.7, hc.8, hc.9, hc.10⟩
        · exact hc
      · rw [Db.ownedBy, Db.after_clientsUpdateSecretHash,
          countP_owner_map _ _ fun c => by split_ifs <;> rfl]
        exact h.limit owner
  | deleted headers clientId pairs session user app hm =>
      rcases db.after_clientsDelete app.id with hafter | hafter
      · rw [hafter]
        exact h
      · have hclients := (deleteClient_clients hafter).1
        refine ⟨fun c hc => ?_, fun owner => ?_⟩
        · rw [hclients] at hc
          exact hmono c (List.mem_filter.1 hc).1
        · rw [Db.ownedBy, hclients]
          exact (List.filter_sublist.countP_le).trans (h.limit owner)

theorem RegistryInv.event {e : Event} (h : RegistryInv st.toCrates e.before) :
    RegistryInv st.toCrates (e.after st) := by
  rcases e.registryEffect st with he | ⟨hclients, hscopes⟩
  · exact h.effect he
  · refine ⟨by rw [hclients, hscopes]; exact h.rows, fun owner => ?_⟩
    rw [Db.ownedBy, hclients]
    exact h.limit owner

end step

/-! ### Runs -/

section runs

variable {st : AppState} {es later earlier : List Event} {e : Event} {db : Db}

/-- **The registry invariant holds in every run.** -/
theorem Run.registryInv (run : Run st es db) : RegistryInv st.toCrates db := by
  induction run with
  | init => exact ⟨fun c hc => absurd hc List.not_mem_nil, fun owner => Nat.zero_le _⟩
  | @step es db run req d faults fresh ih =>
      exact RegistryInv.event (e := ⟨req, d, faults, db, (serve st d faults req db).1⟩) ih

/-- A row is one that was there before `e`, or it was registered since. -/
theorem Run.client_origin (run : Run st (later ++ e :: earlier) db) : ∀ c' ∈ db.clients,
    (∃ c ∈ e.before.clients, SameClient c c') ∨ ∃ e' ∈ later ++ [e], c'.id = e'.draws.uuid 0 := by
  induction later generalizing db with
  | nil =>
      obtain ⟨hrun, -, -, rfl⟩ := run.cons
      intro c' hc'
      rcases Event.client_row e hrun.unique c' hc' with h | h
      · exact .inl h
      · exact .inr ⟨e, List.mem_singleton_self e, h⟩
  | cons x later ih =>
      obtain ⟨hrun, -, -, rfl⟩ := run.cons
      intro c' hc'
      rcases Event.client_row x hrun.unique c' hc' with ⟨c, hc, hsame⟩ | h
      · rcases ih hrun c hc with ⟨c₀, hc₀, hsame'⟩ | ⟨e', he', hid⟩
        · exact .inl ⟨c₀, hc₀, hsame'.trans hsame⟩
        · exact .inr ⟨e', List.mem_cons_of_mem _ he', hsame.id.trans hid⟩
      · exact .inr ⟨x, List.mem_cons_self, h⟩

/-- **A row keeps its identity.** -/
theorem Run.sameClient (run : Run st (later ++ e :: earlier) db) {c c' : OAuthClient}
    (hc : c ∈ e.before.clients) (hc' : c' ∈ db.clients) (hid : c'.id = c.id) : SameClient c c' := by
  obtain ⟨db', hupTo⟩ := run.upTo
  have hbefore : Run st earlier e.before := hupTo.cons.1
  rcases run.client_origin c' hc' with ⟨c₀, hc₀, hsame⟩ | ⟨e', he', hdrawn⟩
  · have heq : c₀ = c :=
      hbefore.unique.eq (t := .clients) hc₀ hc (by simp [clash, ← hsame.id, hid])
    exact heq ▸ hsame
  · -- The id of `c` was drawn before `e`, so not by `e'`.
    obtain ⟨e₀, he₀, i, hi⟩ := hbefore.client_drawn c.id (List.mem_map_of_mem hc)
    have hpair : ∀ x ∈ later ++ [e], DrawnAfter x e₀ := by
      have hpairwise : ((later ++ [e]) ++ earlier).Pairwise DrawnAfter := by
        simpa using run.pairwise
      exact fun x hx => (List.pairwise_append.1 hpairwise).2.2 x hx e₀ he₀
    exact absurd (hdrawn.symm.trans (hid.trans hi.symm)) ((hpair e' he').uuid 0 i)

end runs

/-! ### Errors -/

section errors

variable {st : AppState} {d : Draws} {faults : List Bool} {db : Db}

theorem register_error {cr : Crates} {new : NewClient} {err : RegistrationError}
    (h : ((register cr d new).serve faults db).1 = .error err) :
    ((register cr d new).serve faults db).2 = db := by
  have hwp : (register cr d new).wp (true ∈ faults) (fun r c => ∀ err, r = .error err → c.db = db) { db } :=
    register_wp (fun _ _ _ => rfl) fun _ _ _ => by rintro err ⟨⟩
  exact Prog.wp_serve (S := Sharp) (R := fun r db' => ∀ err, r = .error err → db' = db) _ faults db hwp err h

theorem updateDetails_error {cr : Crates} {client : OAuthClient} {raw : ClientDetails}
    {err : RegistrationError} (h : ((updateDetails cr d client raw).serve faults db).1 = .error err) :
    ((updateDetails cr d client raw).serve faults db).2 = db := by
  have hwp : (updateDetails cr d client raw).wp (true ∈ faults)
      (fun r c => ∀ err, r = .error err → c.db = db) { db } :=
    updateDetails_wp (fun _ _ _ => rfl) fun _ _ => by rintro err ⟨⟩
  exact Prog.wp_serve (S := Sharp) (R := fun r db' => ∀ err, r = .error err → db' = db) _ faults db hwp err h

end errors

/-- **The client registry.** -/
theorem client_registry {st : AppState} {es : List Event} {db : Db} (run : Run st es db) :
    (∀ c ∈ db.clients, c.WellFormed st.toCrates db.scopes) ∧
    (∀ owner : Uuid, db.clients.countP (fun c => c.ownerUserId = some owner) ≤ 25) ∧
    (∀ later e earlier, es = later ++ e :: earlier → ∀ c ∈ e.before.clients, ∀ c' ∈ db.clients,
      c'.id = c.id → SameClient c c') ∧
    ∀ (d : Draws) (faults : List Bool) (err : RegistrationError),
      (∀ new, ((register st.toCrates d new).serve faults db).1 = .error err →
        ((register st.toCrates d new).serve faults db).2 = db) ∧
      ∀ client raw, ((updateDetails st.toCrates d client raw).serve faults db).1 = .error err →
        ((updateDetails st.toCrates d client raw).serve faults db).2 = db := by
  refine ⟨run.registryInv.rows, run.registryInv.limit, ?_, ?_⟩
  · rintro later e earlier rfl c hc c' hc' hid
    exact run.sameClient hc hc' hid
  · exact fun d faults err => ⟨fun new => register_error, fun client raw => updateDetails_error⟩

theorem client_registry_registered :
    (∀ c ∈ Sample.registered.clients, c.WellFormed Sample.state.toCrates Sample.registered.scopes) ∧
    ∀ owner : Uuid, Sample.registered.clients.countP (fun c => c.ownerUserId = some owner) ≤ 25 :=
  ⟨(client_registry Sample.served_registered.run).1, (client_registry Sample.served_registered.run).2.1⟩

end SharpOauth
