import SharpOauth.RedemptionRaces

/-! # What a revocation reaches

A family of refresh tokens is revoked by one `UPDATE`, which finds the tokens that are committed when
it starts.  A successor that another request inserts at the same time is not among them.

So much is true of every interleaving (`revocation_races`): when a request has been answered that
revokes a family, every token of the family is revoked, for ever, but for those that were inserted by
a transaction that committed after the `UPDATE` had started.  The exception does occur
(`Sample.revocation_races_lost`).

When no such transaction commits while the revocation is under way (`Overtaken`), the whole family is
revoked, and no token is added to it any more (`family_revoked`).  As in `RedemptionRaces`, no
application is deleted meanwhile. -/

namespace SharpOauth

open Token

variable {ι : Type}

/-- What a request revokes: a family, or the tokens that descend from a code. -/
inductive Target where
  | family (familyId : Uuid)
  | code (codeId : Uuid)

def Target.Selects : Target → RefreshToken → Prop
  | .family familyId, t => t.familyId = familyId
  | .code codeId, t => t.authorizationCodeId = some codeId

theorem Target.selects_of_later {target : Target} {t t' : RefreshToken} (h : TokenLater t t')
    (ht' : target.Selects t') : target.Selects t := by
  cases target with
  | family familyId => exact h.familyId.symm.trans ht'
  | code codeId => exact h.code.symm.trans ht'

/-- The answer to a request that revokes tokens: a revocation of a token that its lookup has seen, or
a replay of a token or code. -/
inductive Revoker (st : AppState) (i : ι) (w : World ι Sharp) : Request → Response → Target → Prop where
  | revocation (headers : HeaderMap) (pairs : List (String × String)) (params : Params) (token : String)
      (hparams : Params.fromPairs pairs = .ok params) (htoken : params.get "token" = some token) (s : Db)
      (hlookup : .snapshot i (.tokensFindByHash (st.hashToken token)) s ∈ w.trace)
      (t : RefreshToken) (ht : t ∈ s.refreshTokens) (hhash : t.tokenHash = st.hashToken token)
      (r : Response) (hr : r.body = .empty) :
      Revoker st i w (.revoke headers (some pairs)) r (.family t.familyId)
  | tokenReplay (headers : HeaderMap) (pairs : List (String × String)) (params : Params) (raw : String)
      (hparams : Params.fromPairs pairs = .ok params)
      (hgrant : params.get "grant_type" = some "refresh_token")
      (hraw : params.get "refresh_token" = some raw) (t : RefreshToken)
      (ht : t ∈ Db.refreshTokens w.db) (hhash : t.tokenHash = st.hashToken raw) (r : Response)
      (hr : r.body = .oauthError tokenReplayed) :
      Revoker st i w (.token headers (some pairs)) r (.family t.familyId)
  | codeReplay (headers : HeaderMap) (pairs : List (String × String)) (params : Params) (code : String)
      (hparams : Params.fromPairs pairs = .ok params)
      (hgrant : params.get "grant_type" = some "authorization_code")
      (hcode : params.get "code" = some code) (c : AuthorizationCode) (hc : c ∈ Db.codes w.db)
      (hhash : c.codeHash = st.hashToken code) (r : Response) (hr : r.body = .oauthError codeReplayed) :
      Revoker st i w (.token headers (some pairs)) r (.code c.id)

/-- What is swept stays swept. -/
theorem Sweeps.since {i : ι} {sel : RefreshToken → Prop} {w w' : World ι Sharp}
    {entries : List (Entry ι Sharp)} (h : Sweeps i sel w) (hsince : Since entries w w')
    (hdb : Sharp.Distinct w'.db) (hsel : ∀ t t', TokenLater t t' → sel t' → sel t) :
    Sweeps i sel w' := by
  obtain ⟨later, q, s, earlier, hq, htrace, hswept⟩ := h
  refine ⟨entries ++ later, q, s, earlier, hq, by rw [hsince.trace, htrace, List.append_assoc],
    fun t' ht' hselected => ?_⟩
  rcases hsince.added t' ht' with ⟨t, ht, hid⟩ | hinserted
  · obtain ⟨t₁, ht₁, hlater⟩ := hsince.tokens t ht
    obtain rfl : t₁ = t' :=
      Locking.eq_of_key (hdb.keys .refreshTokens) ht₁ ht' (congrArg Sum.inl (hlater.id.trans hid))
    rcases hswept t ht (hsel t t₁ hlater hselected) with hrevoked | hinserted
    · exact .inl (hlater.revoked hrevoked)
    · rw [← hid]
      exact .inr (hinserted.mono (List.subset_append_right _ _))
  · exact .inr (hinserted.mono (List.subset_append_left _ _))

/-- A row is the only one with its hash. -/
theorem TokenLater.of_hash {db : Db} (hdb : Sharp.Distinct db) {t t' u : RefreshToken}
    (hlater : TokenLater t t') (ht' : t' ∈ db.refreshTokens) (hu : u ∈ db.refreshTokens)
    (hhash : u.tokenHash = t.tokenHash) : t' = u :=
  hdb.rows .refreshTokens t' u ht' hu (by simp [clash, hlater.tokenHash, hhash])

section runs

variable [Fintype ι] [DecidableEq ι] {st : AppState} {es : List Event} {db : Db} {d : ι → Draws}
  {req : ι → Request} {schedule : List (ι × Bool)} {m : Machine ι Sharp Empty Response}

/-- The request has swept what it revokes, and it is a family that was there. -/
theorem Run.swept (run : Run st es db) (hrun : (serveTogether st d req db).run schedule = some m)
    {i : ι} {r : Response} (hret : (m.threads i).prog = .ret r) {target : Target}
    (hrevoker : Revoker st i m.world (req i) r target) :
    ∃ w, Meanwhile i w m.world ∧ Swept i target.Selects w ∧
      ∀ familyId, target = .family familyId → ∃ u ∈ w.db .refreshTokens,
        RefreshToken.familyId u = familyId := by
  have hok := run.ok hrun
  have hdb := hok.locking.distinct
  obtain ⟨w, hmeanwhile, houtcome⟩ := hok.result i hret
  obtain ⟨entries, hsince, -⟩ := id hmeanwhile
  refine ⟨w, hmeanwhile, ?_⟩
  generalize hreq : req i = req' at hrevoker
  cases hrevoker with
  | revocation headers pairs params token hparams htoken s hlookup t ht hhash _ hr =>
      obtain ⟨r', heq, h⟩ := houtcome.2 headers pairs hreq
      obtain rfl := Except.ok.inj heq
      cases r' with
      | ok u =>
          obtain ⟨hswept, hfamily⟩ := h params token hparams htoken s
            (hmeanwhile.later.lookups hlookup) t ht hhash
          refine ⟨hswept, fun familyId heq => ?_⟩
          cases heq
          exact hfamily
      | error e => simp [revokeResponse, AppError.intoResponse] at hr
  | tokenReplay headers pairs params raw hparams hgrant hraw t ht hhash _ hr =>
      obtain ⟨r', heq, h⟩ := houtcome.1 headers pairs hreq
      obtain rfl := Except.ok.inj heq
      obtain rfl := tokenResponse_error hr
      obtain ⟨raw', hraw', u, hu, huhash, hswept⟩ := (h params hparams).2 hgrant rfl
      obtain rfl := Option.some.inj (hraw.symm.trans hraw')
      obtain ⟨u', hu', hlater⟩ := hsince.tokens u hu
      have heq := hlater.of_hash hdb hu' ht (hhash.trans huhash.symm)
      have hsame : u.familyId = t.familyId := by rw [← hlater.familyId, heq]
      rw [hsame] at hswept
      refine ⟨hswept, fun familyId heq => ⟨u, hu, ?_⟩⟩
      cases heq
      exact hsame
  | codeReplay headers pairs params code hparams hgrant hcode c hc hhash _ hr =>
      obtain ⟨r', heq, h⟩ := houtcome.1 headers pairs hreq
      obtain rfl := Except.ok.inj heq
      obtain rfl := tokenResponse_error hr
      obtain ⟨code', hcode', u, hu, huhash, hswept⟩ := (h params hparams).1 hgrant rfl
      obtain rfl := Option.some.inj (hcode.symm.trans hcode')
      obtain ⟨u', hu', hlater⟩ := hsince.codes u hu
      have heq : u' = c := hdb.rows .codes u' c hu' hc
        (by simp [clash, hlater.codeHash, huhash, hhash])
      have hsame : u.id = c.id := by rw [← hlater.id, heq]
      rw [hsame] at hswept
      exact ⟨hswept, fun familyId heq => by cases heq⟩

/-- **What a revocation reaches.**  Whatever requests run at the same time: once a request that revokes
a family has been answered, every token of the family is revoked, or was inserted by a transaction that
committed after the revoking statement had started. -/
theorem revocation_races (run : Run st es db) (hrun : (serveTogether st d req db).run schedule = some m)
    {i : ι} {r : Response} (hret : (m.threads i).prog = .ret r) {target : Target}
    (hrevoker : Revoker st i m.world (req i) r target) : Sweeps i target.Selects m.world := by
  obtain ⟨w, ⟨entries, hsince, -⟩, hswept, -⟩ := run.swept hrun hret hrevoker
  exact hswept.sweeps.since hsince (run.ok hrun).locking.distinct fun _ _ => Target.selects_of_later

end runs

/-! ### Revocations that are not overtaken -/

/-- A revoking `UPDATE` of the thread has started, and the thread has not committed since. -/
def Underway (i : ι) : List (Entry ι Sharp) → Prop
  | [] => False
  | .snapshot j q _ :: earlier => (j = i ∧ q.RevokesTokens) ∨ Underway i earlier
  | .commit j _ _ :: earlier => j ≠ i ∧ Underway i earlier

/-- The commit adds a token to the family. -/
def Adds (familyId : Uuid) (before : Db) (log : List (Version Sharp)) : Prop :=
  ∃ t ∈ Db.refreshTokens (install log before), t.familyId = familyId ∧
    ∀ u ∈ before.refreshTokens, u.id ≠ t.id

/-- A token has been added to the family while the thread was revoking. -/
def Overtaken (i : ι) (familyId : Uuid) : List (Entry ι Sharp) → Prop
  | [] => False
  | .snapshot _ _ _ :: earlier => Overtaken i familyId earlier
  | .commit _ before log :: earlier =>
      (Underway i earlier ∧ Adds familyId before log) ∨ Overtaken i familyId earlier

instance Stmt.decidableRevokesTokens (q : Stmt) : Decidable q.RevokesTokens :=
  decidable_of_iff (q.revokesTokens = true) Stmt.revokesTokens_iff

instance Underway.decidable [DecidableEq ι] (i : ι) :
    ∀ trace : List (Entry ι Sharp), Decidable (Underway i trace)
  | [] => inferInstanceAs (Decidable False)
  | .snapshot j q _ :: earlier =>
      have := decidable i earlier
      inferInstanceAs (Decidable ((j = i ∧ q.RevokesTokens) ∨ Underway i earlier))
  | .commit j _ _ :: earlier =>
      have := decidable i earlier
      inferInstanceAs (Decidable (j ≠ i ∧ Underway i earlier))

instance Adds.decidable (familyId : Uuid) (before : Db) (log : List (Version Sharp)) :
    Decidable (Adds familyId before log) :=
  inferInstanceAs (Decidable (∃ t ∈ Db.refreshTokens (install log before), t.familyId = familyId ∧
    ∀ u ∈ before.refreshTokens, u.id ≠ t.id))

instance Overtaken.decidable [DecidableEq ι] (i : ι) (familyId : Uuid) :
    ∀ trace : List (Entry ι Sharp), Decidable (Overtaken i familyId trace)
  | [] => inferInstanceAs (Decidable False)
  | .snapshot _ _ _ :: earlier => decidable i familyId earlier
  | .commit _ before log :: earlier =>
      have := decidable i familyId earlier
      inferInstanceAs (Decidable ((Underway i earlier ∧ Adds familyId before log) ∨
        Overtaken i familyId earlier))

/-- The answer to a request that revokes the family: by one of its tokens, or by the code it was born
from, if it had been born when the request committed. -/
inductive FamilyRevoker (st : AppState) (i : ι) (w : World ι Sharp) (req : Request) (r : Response) :
    Uuid → Prop where
  | token (familyId : Uuid) (h : Revoker st i w req r (.family familyId)) :
      FamilyRevoker st i w req r familyId
  | code (codeId : Uuid) (h : Revoker st i w req r (.code codeId)) (before : Db)
      (log : List (Version Sharp)) (hcommit : .commit i before log ∈ w.trace) (t : RefreshToken)
      (ht : t ∈ before.refreshTokens) (hborn : t.authorizationCodeId = some codeId) :
      FamilyRevoker st i w req r t.familyId

theorem Underway.of_others {i : ι} {q : Stmt} (hq : q.RevokesTokens) {s : Db}
    {earlier : List (Entry ι Sharp)} : ∀ {mid : List (Entry ι Sharp)}, (∀ e ∈ mid, Entry.thread e ≠ i) →
      Underway i (mid ++ .snapshot i q s :: earlier)
  | [], _ => .inl ⟨rfl, hq⟩
  | .snapshot _ _ _ :: _, hmid => .inr (of_others hq (List.forall_mem_cons.1 hmid).2)
  | .commit _ _ _ :: _, hmid =>
      ⟨(List.forall_mem_cons.1 hmid).1, of_others hq (List.forall_mem_cons.1 hmid).2⟩

theorem Overtaken.append {i : ι} {familyId : Uuid} {earlier : List (Entry ι Sharp)}
    (h : Overtaken i familyId earlier) : ∀ later, Overtaken i familyId (later ++ earlier)
  | [] => h
  | .snapshot _ _ _ :: later => h.append later
  | .commit _ _ _ :: later => .inr (h.append later)

section families

variable {st : AppState} {es : List Event} {db : Db} {d : ι → Draws} {i : ι} {w w' : World ι Sharp}
  {familyId : Uuid}

/-- Codes and tokens only get later. -/
theorem tokens_since (h : (tokenContract st d).History w w') : ∃ entries, Since entries w w' := by
  induction h with
  | start => exact ⟨[], .refl w⟩
  | @note w' h j q s ih =>
      obtain ⟨entries, hsince⟩ := ih
      exact ⟨_, hsince.trans (.note w' j q s)⟩
  | commit h j log hdistinct hguar ih =>
      obtain ⟨entries, hsince⟩ := ih
      exact ⟨_, hsince.trans (hguar.since hdistinct j)⟩

/-- The family is there, and revoked as a whole. -/
structure Gone (familyId : Uuid) (db : Db) : Prop where
  dead : Dead familyId db.refreshTokens
  born : ∃ t ∈ db.refreshTokens, t.familyId = familyId

/-- No commit adds a token to a family that is revoked as a whole, or takes the revocation back. -/
theorem TokenCommit.gone {log : List (Version Sharp)} (hcommit : TokenCommit st (d i) w.db log)
    (hwoven : Woven es d w.db) (hd : FreshTogether es d) (hgone : Gone familyId w.db) {t : RefreshToken}
    (ht : t ∈ Db.refreshTokens (install log w.db)) (hfamily : t.familyId = familyId) :
    t.revokedAt ≠ none ∧ ∃ u ∈ Db.refreshTokens w.db, u.id = t.id := by
  rcases mem_install ht with hlog | ⟨ht, -⟩
  · cases hcommit with
    | quiet _ h =>
        cases h _ hlog with
        | other _ _ htokens => exact absurd rfl htokens
    | claimed record => cases List.mem_singleton.1 hlog
    | redeemed client record hmem hunused hnew =>
        rcases List.mem_cons.1 hlog with heq | hlog
        · cases heq
        · cases List.mem_singleton.1 hlog
          obtain ⟨u, hu, hsame⟩ := hgone.born
          exact absurd (hsame.trans hfamily.symm) (hwoven.new_family hd hnew hu)
    | refreshed client record hmem hok hnew =>
        -- Both versions belong to the family of a token that is not revoked.
        have hsame : record.familyId = familyId := by
          rcases List.mem_cons.1 hlog with heq | hlog
          · cases heq
            exact hfamily
          · cases List.mem_singleton.1 hlog
            exact hfamily
        exact absurd (checkUsable_ok hok).2.1 (hgone.dead record hmem hsame)
    | revoked _ h =>
        obtain ⟨u, hu, -, heq⟩ := h _ hlog
        cases heq
        exact ⟨by simp [RefreshToken.revokedBy], u, hu, rfl⟩
  · exact ⟨hgone.dead t ht hfamily, t, ht, rfl⟩

/-- A family that is revoked as a whole stays so, and no token is added to it. -/
theorem Gone.kept (hd : FreshTogether es d) (hwoven : Woven es d w.db) (hgone : Gone familyId w.db)
    (h : (tokenContract st d).History w w') : Woven es d w'.db ∧ Gone familyId w'.db ∧
      ∃ later, w'.trace = later ++ w.trace ∧
        ∀ j before log, .commit j before log ∈ later → ¬Adds familyId before log := by
  induction h with
  | start => exact ⟨hwoven, hgone, [], rfl, fun _ _ _ hmem => absurd hmem List.not_mem_nil⟩
  | note h j q s ih =>
      obtain ⟨hwoven, hgone, later, htrace, hnone⟩ := ih
      refine ⟨hwoven, hgone, .snapshot j q s :: later, congrArg (List.cons _) htrace,
        fun k before log hmem => ?_⟩
      rcases List.mem_cons.1 hmem with heq | hmem
      · cases heq
      · exact hnone k before log hmem
  | @commit w' h j log hdistinct hguar ih =>
      obtain ⟨hwoven, hgone, later, htrace, hnone⟩ := ih
      have hrows {t : RefreshToken} (ht : t ∈ Db.refreshTokens (install log w'.db))
          (hfamily : t.familyId = familyId) := hguar.gone hwoven hd hgone ht hfamily
      refine ⟨hguar.woven hwoven hd hdistinct, ⟨fun t ht hfamily => (hrows ht hfamily).1, ?_⟩,
        .commit j w'.db log :: later, congrArg (List.cons _) htrace, fun k before log' hmem => ?_⟩
      · obtain ⟨t, ht, hfamily⟩ := hgone.born
        obtain ⟨t', ht', hlater⟩ := (hguar.since hdistinct j).tokens t ht
        exact ⟨t', ht', hlater.familyId.trans hfamily⟩
      · rcases List.mem_cons.1 hmem with heq | hmem
        · cases heq
          rintro ⟨t, ht, hfamily, hnew⟩
          obtain ⟨-, u, hu, hid⟩ := hrows ht hfamily
          exact hnew u hu hid
        · exact hnone k before log' hmem

/-- A token that others have inserted while the thread was revoking. -/
theorem Overtaken.of_inserted (h : (tokenContract st d).History ⟨db, []⟩ w) (hdb : Sharp.Distinct w.db)
    {later mid earlier : List (Entry ι Sharp)} {q : Stmt} (hq : q.RevokesTokens) {s : Db}
    (htrace : w.trace = later ++ (mid ++ .snapshot i q s :: earlier))
    (hmid : ∀ e ∈ mid, Entry.thread e ≠ i) {t : RefreshToken} (ht : t ∈ w.db .refreshTokens)
    (hinserted : Inserted mid t.id) : Overtaken i t.familyId w.trace := by
  obtain ⟨j, before, log, hmem, hnew, t₀, hlog, hid₀⟩ := hinserted
  obtain ⟨mid', mid'', rfl⟩ := List.append_of_mem hmem
  have hsplit : w.trace = (later ++ mid') ++
      .commit j before log :: (mid'' ++ .snapshot i q s :: earlier) := by
    rw [htrace]
    simp
  have hbefore := h.before_eq _ hsplit
  obtain ⟨entries, hsince⟩ := tokens_since (h.split _ _ hsplit).2
  -- The token is in the tables that this commit leaves behind, and in the same family.
  obtain ⟨t₁, ht₁, hkey⟩ := exists_install (s := before) hlog
  have hid₁ : RefreshToken.id t₁ = t.id := (Sum.inl.inj hkey).trans hid₀
  obtain ⟨t₂, ht₂, hlater⟩ := hsince.tokens t₁ (by rw [hbefore] at ht₁; exact ht₁)
  obtain rfl : t₂ = t := Locking.eq_of_key (hdb.keys .refreshTokens) ht₂ ht
    (congrArg Sum.inl (hlater.id.trans hid₁))
  have hunderway : Underway i (mid'' ++ .snapshot i q s :: earlier) :=
    .of_others hq fun e he => hmid e (List.mem_append_right _ (List.mem_cons_of_mem _ he))
  have hadds : Adds t₂.familyId before log :=
    ⟨t₁, ht₁, hlater.familyId.symm, fun u hu hid => hnew u hu (hid.trans hid₁)⟩
  have hovertaken : Overtaken i t₂.familyId (.commit j before log :: (mid'' ++ .snapshot i q s :: earlier)) :=
    Or.inl ⟨hunderway, hadds⟩
  rw [hsplit]
  exact hovertaken.append _

/-- The world after the commit is part of the run. -/
theorem Swept.history {sel : RefreshToken → Prop} (hswept : Swept i sel w) (hmeanwhile : Meanwhile i w w')
    (h : (tokenContract st d).History ⟨db, []⟩ w') : (tokenContract st d).History ⟨db, []⟩ w := by
  obtain ⟨q, s, before, log, mid, earlier, -, hw, htrace, -⟩ := hswept
  obtain ⟨entries, hsince, -⟩ := hmeanwhile
  have hbefore := h.before_eq entries (hsince.trace.trans (congrArg (entries ++ ·) htrace))
  have hto := (h.split entries w.trace hsince.trace).1
  have hdb : replay db w.trace = w.db := by
    rw [htrace, hw, hbefore]
    rfl
  rwa [hdb] at hto

/-- What is swept, and has not been overtaken, is revoked. -/
theorem Swept.gone {sel : RefreshToken → Prop} (hswept : Swept i sel w)
    (h : (tokenContract st d).History ⟨db, []⟩ w) (hdb : Sharp.Distinct w.db)
    (hborn : ∃ t ∈ w.db .refreshTokens, RefreshToken.familyId t = familyId)
    (hsel : ∀ t ∈ w.db .refreshTokens, RefreshToken.familyId t = familyId → sel t)
    (hcalm : ¬Overtaken i familyId w.trace) : Gone familyId w.db := by
  obtain ⟨q, s, before, log, mid, earlier, hq, -, htrace, hmid, hall⟩ := hswept
  refine ⟨fun t ht hfamily => ?_, hborn⟩
  rcases hall t ht (hsel t ht hfamily) with hrevoked | hinserted
  · exact hrevoked
  · have htrace : w.trace = [.commit i before log] ++ (mid ++ .snapshot i q s :: earlier) := htrace
    subst hfamily
    exact absurd (Overtaken.of_inserted h hdb hq htrace hmid ht hinserted) hcalm

end families

section runs

variable [Fintype ι] [DecidableEq ι] {st : AppState} {es : List Event} {db : Db} {d : ι → Draws}
  {req : ι → Request} {schedule : List (ι × Bool)} {m : Machine ι Sharp Empty Response}

/-- When the request commits, the whole family is revoked. -/
theorem Run.gone (run : Run st es db) (hd : FreshTogether es d)
    (hrun : (serveTogether st d req db).run schedule = some m) {i : ι} {r : Response}
    (hret : (m.threads i).prog = .ret r) {familyId : Uuid}
    (hrevoker : FamilyRevoker st i m.world (req i) r familyId)
    (hcalm : ¬Overtaken i familyId m.world.trace) :
    ∃ later before log earlier, m.world.trace = later ++ .commit i before log :: earlier ∧
      Gone familyId (replay db (.commit i before log :: earlier)) := by
  have hok := run.ok hrun
  suffices h : ∃ w target, Meanwhile i w m.world ∧ Swept i (Target.Selects target) w ∧
      (∃ t ∈ w.db .refreshTokens, RefreshToken.familyId t = familyId) ∧
      ∀ t ∈ w.db .refreshTokens, RefreshToken.familyId t = familyId → target.Selects t by
    obtain ⟨w, target, hmeanwhile, hswept, hborn, hsel⟩ := h
    have hw := hswept.history hmeanwhile hok.history
    obtain ⟨entries, hsince, -⟩ := hmeanwhile
    have hdb : Sharp.Distinct w.db := by
      rw [hw.replay_eq]
      exact hok.history.distinct hok.locking.distinct _ ⟨entries, hsince.trace.symm⟩
    have hgone := hswept.gone hw hdb hborn hsel fun h => hcalm (hsince.trace ▸ h.append entries)
    obtain ⟨q, s, before, log, mid, earlier, -, -, htrace, -⟩ := hswept
    refine ⟨entries, before, log, _, hsince.trace.trans (congrArg (entries ++ ·) htrace), ?_⟩
    rwa [hw.replay_eq, htrace] at hgone
  cases hrevoker with
  | token _ h =>
      obtain ⟨w, hmeanwhile, hswept, hborn⟩ := run.swept hrun hret h
      exact ⟨w, _, hmeanwhile, hswept, hborn familyId rfl, fun t _ hfamily => hfamily⟩
  | code codeId h before log hcommit t ht hborn =>
      obtain ⟨w, hmeanwhile, hswept, -⟩ := run.swept hrun hret h
      have hw := hswept.history hmeanwhile hok.history
      obtain ⟨entries, hsince, hothers⟩ := id hmeanwhile
      -- The commit of the request comes before `w`, and so does the token of the family.
      rw [hsince.trace] at hcommit
      have hcommit := (List.mem_append.1 hcommit).resolve_left fun h => hothers _ h rfl
      obtain ⟨later, earlier, htrace⟩ := List.append_of_mem hcommit
      have hbefore := hw.before_eq later htrace
      obtain ⟨_, hsince'⟩ := tokens_since (hw.split (later ++ [.commit i before log]) earlier (by simp [htrace])).2
      rw [hbefore] at ht
      obtain ⟨t', ht', hlater⟩ := hsince'.tokens t ht
      refine ⟨w, _, hmeanwhile, hswept, ⟨t', ht', hlater.familyId⟩, fun u hu hfamily => ?_⟩
      have hsame := (run.woven hd hw).same_code hu ht' (hfamily.trans hlater.familyId.symm)
      exact hsame.trans (hlater.code.trans hborn)

/-- **A revocation that is not overtaken** revokes the whole family, for ever, and no token is added to
the family after the request has committed. -/
theorem family_revoked (run : Run st es db) (hd : FreshTogether es d)
    (hrun : (serveTogether st d req db).run schedule = some m) {i : ι} {r : Response}
    (hret : (m.threads i).prog = .ret r) {familyId : Uuid}
    (hrevoker : FamilyRevoker st i m.world (req i) r familyId)
    (hcalm : ¬Overtaken i familyId m.world.trace) :
    Dead familyId (Db.refreshTokens m.world.db) ∧
      ∃ later before log earlier, m.world.trace = later ++ .commit i before log :: earlier ∧
        ∀ j before' log', .commit j before' log' ∈ later → ¬Adds familyId before' log' := by
  obtain ⟨later, before, log, earlier, htrace, hgone⟩ := run.gone hd hrun hret hrevoker hcalm
  obtain ⟨hto, hfrom⟩ := (run.ok hrun).history.split later _ htrace
  obtain ⟨-, hgone, later', htrace', hnone⟩ := hgone.kept hd (run.woven hd hto) hfrom
  obtain rfl : later' = later := List.append_cancel_right (htrace'.symm.trans htrace)
  exact ⟨hgone.dead, later', before, log, earlier, htrace, hnone⟩

end runs

/-! ### A successor that a revocation misses -/

namespace Sample

/-- The first client revokes its token and uses it at the same time. -/
def revokeAndRefresh : Fin 2 → Request
  | 0 => .revoke noHeaders (some [("client_id", clientA.clientId),
      ("token", generateToken ((draws 5).secret 0))])
  | 1 => .token noHeaders (some [("grant_type", "refresh_token"), ("client_id", clientA.clientId),
      ("refresh_token", generateToken ((draws 5).secret 0))])

/-- The `UPDATE` starts when the token is locked, waits for it, and has not seen the successor. -/
def revokesLate : List (Fin 2 × Bool) :=
  turns [true, true, true, true, true, false, false, true, false, true, true, true, true, false, false]

/-- A token of the family is not revoked. -/
def missed (db : Db) : Bool :=
  db.refreshTokens.any fun t => t.familyId = refreshToken.familyId ∧ t.revokedAt = none

def emptyBody (r : Response) : Bool :=
  match r.body with
  | .empty => true
  | _ => false

theorem emptyBody_eq_true {r : Response} (h : emptyBody r = true) : r.body = .empty := by
  obtain ⟨status, body, cookies⟩ := r
  cases body <;> cases h
  rfl

/-- The lookup of a token by a request, if the entry is one. -/
def lookup? (tokenHash : String) : Entry (Fin 2) Sharp → Option (Fin 2 × Db)
  | .snapshot i (.tokensFindByHash h) s => if h = tokenHash then some (i, s) else none
  | _ => none

theorem lookup?_eq_some {tokenHash : String} {e : Entry (Fin 2) Sharp} {i : Fin 2} {s : Db}
    (h : lookup? tokenHash e = some (i, s)) : e = .snapshot i (.tokensFindByHash tokenHash) s := by
  unfold lookup? at h
  split at h
  · split_ifs at h with heq
    cases h
    rw [heq]
  · cases h

/-- The revocation has seen the token. -/
def sawToken (trace : List (Entry (Fin 2) Sharp)) : Bool :=
  trace.any fun e => (lookup? refreshToken.tokenHash e).any fun p =>
    p.1.val == 0 && p.2.refreshTokens.contains refreshToken

theorem sawToken_eq_true {trace : List (Entry (Fin 2) Sharp)} (h : sawToken trace = true) :
    ∃ s : Db, .snapshot 0 (.tokensFindByHash refreshToken.tokenHash) s ∈ trace ∧
      refreshToken ∈ s.refreshTokens := by
  obtain ⟨e, he, h⟩ := List.any_eq_true.1 h
  cases hlookup : lookup? refreshToken.tokenHash e with
  | none => simp [hlookup] at h
  | some p =>
      obtain ⟨i, s⟩ := p
      obtain ⟨hi, hmem⟩ : i.val = 0 ∧ refreshToken ∈ s.refreshTokens := by simpa [hlookup] using h
      obtain rfl : i = 0 := Fin.ext hi
      exact ⟨s, lookup?_eq_some hlookup ▸ he, hmem⟩

/-- How the two requests ended: the revocation with success, the exchange with tokens, with a token of
the family left, and after a lookup that has seen the token. -/
def report (m : Machine (Fin 2) Sharp Empty Response) : Option (Bool × Bool × Bool × Bool) :=
  (answer? (m.threads ⟨0, Nat.two_pos⟩).prog).bind fun r =>
    (answer? (m.threads ⟨1, Nat.one_lt_two⟩).prog).map fun r' =>
      (emptyBody r, (tokens? r').isSome, missed m.world.db, sawToken m.world.trace)

theorem report_eq_some {m : Machine (Fin 2) Sharp Empty Response} {exchanged left : Bool}
    (h : report m = some (true, exchanged, left, true)) : ∃ r r', (m.threads 0).prog = .ret r ∧
      (m.threads 1).prog = .ret r' ∧ r.body = .empty ∧ (tokens? r').isSome = exchanged ∧
      missed m.world.db = left ∧ Revoker state 0 m.world (revokeAndRefresh 0) r (.family refreshToken.familyId) := by
  obtain ⟨r, hr, h⟩ := Option.bind_eq_some_iff.1 h
  obtain ⟨r', hr', h⟩ := Option.map_eq_some_iff.1 h
  simp only [Prod.mk.injEq] at h
  obtain ⟨hbody, hexchanged, hmissed, hsaw⟩ := h
  obtain ⟨s, hlookup, hmem⟩ := sawToken_eq_true hsaw
  have hempty := emptyBody_eq_true hbody
  refine ⟨r, r', answer?_eq_some hr, answer?_eq_some hr', hempty, hexchanged, hmissed, ?_⟩
  have hhash : refreshToken.tokenHash = state.hashToken (generateToken ((draws 5).secret 0)) := by
    decide +kernel
  exact .revocation noHeaders _ _ _ rfl rfl s (hhash ▸ hlookup) refreshToken hmem hhash r hempty

theorem run_revokesLate : ((serveTogether state (fun i : Fin 2 => draws (6 + i)) revokeAndRefresh
    exchanged).run revokesLate).bind report = some (true, true, true, true) := by
  decide +kernel

/-- The revocation has been answered, and a token of the family is not revoked. -/
theorem revocation_races_lost : ∃ m r, (serveTogether state (fun i : Fin 2 => draws (6 + i))
    revokeAndRefresh exchanged).run revokesLate = some m ∧ (m.threads 0).prog = .ret r ∧
    r.body = .empty ∧ missed m.world.db = true ∧
    Sweeps 0 (Target.family refreshToken.familyId).Selects m.world := by
  obtain ⟨m, hrun, h⟩ := Option.bind_eq_some_iff.1 run_revokesLate
  obtain ⟨r, -, hret, -, hempty, -, hmissed, hrevoker⟩ := report_eq_some h
  exact ⟨m, r, hrun, hret, hempty, hmissed,
    revocation_races served_exchanged.run hrun hret hrevoker⟩

/-- Both requests have been answered, and the family is not revoked as a whole. -/
theorem family_revoked_not : ∃ m r r', (serveTogether state (fun i : Fin 2 => draws (6 + i))
    revokeAndRefresh exchanged).run revokesLate = some m ∧ (m.threads 0).prog = .ret r ∧
    (m.threads 1).prog = .ret r' ∧
    FamilyRevoker state 0 m.world (revokeAndRefresh 0) r refreshToken.familyId ∧
    ¬Dead refreshToken.familyId (Db.refreshTokens m.world.db) := by
  obtain ⟨m, hrun, h⟩ := Option.bind_eq_some_iff.1 run_revokesLate
  obtain ⟨r, r', hret, hret', -, -, hmissed, hrevoker⟩ := report_eq_some h
  refine ⟨m, r, r', hrun, hret, hret', .token _ hrevoker, fun hdead => ?_⟩
  obtain ⟨t, ht, hleft⟩ := List.any_eq_true.1 hmissed
  obtain ⟨hfamily, hunrevoked⟩ := of_decide_eq_true hleft
  exact hdead t ht hfamily hunrevoked

/-- The exchange has begun when the revocation runs, and finds the token revoked. -/
def revokesFirst : List (Fin 2 × Bool) :=
  turns [true, true, true, false, false, false, false, false, true, true, true]

theorem run_revokesFirst : ((serveTogether state (fun i : Fin 2 => draws (6 + i)) revokeAndRefresh
    exchanged).run revokesFirst).bind (fun m => (report m).map fun b =>
      (b, decide (Overtaken 0 refreshToken.familyId m.world.trace))) =
        some ((true, false, false, true), false) := by
  decide +kernel

/-- A revocation while a token of the family is being exchanged. -/
theorem family_revoked_first : ∃ m r, (serveTogether state (fun i : Fin 2 => draws (6 + i))
    revokeAndRefresh exchanged).run revokesFirst = some m ∧ (m.threads 0).prog = .ret r ∧
    Dead refreshToken.familyId (Db.refreshTokens m.world.db) ∧
    ∃ later before log earlier, m.world.trace = later ++ .commit 0 before log :: earlier ∧
      ∀ j before' log', .commit j before' log' ∈ later → ¬Adds refreshToken.familyId before' log' := by
  obtain ⟨m, hrun, h⟩ := Option.bind_eq_some_iff.1 run_revokesFirst
  obtain ⟨b, hreport, h⟩ := Option.map_eq_some_iff.1 h
  obtain ⟨rfl, hcalm⟩ := Prod.mk.inj h
  obtain ⟨r, -, hret, -, -, -, -, hrevoker⟩ := report_eq_some hreport
  exact ⟨m, r, hrun, hret, family_revoked served_exchanged.run (served_exchanged.together (by decide)) hrun
    hret (.token _ hrevoker) (of_decide_eq_false hcalm)⟩

end Sample

end SharpOauth
