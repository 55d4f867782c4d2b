import SharpOauth.Interleavings

/-! # Requests that race for codes and refresh tokens

Any number of requests run at the same time, and their statements interleave.  Each commit of a
request is a step of `TokenCommit`: it claims an unused code, perhaps with the first token of a new
family, rotates a token that is neither revoked nor rotated, revokes tokens, or leaves codes and
tokens alone.  What a request relies on is that codes and tokens are never removed, stay used,
rotated and revoked, and that new tokens are on record (`Since`), and that nobody else acts in its
name (`Meanwhile`). -/

namespace SharpOauth

open Token

variable {ι : Type}

/-! ### What others may do -/

/-- A token and the same token later. -/
structure TokenLater (t t' : RefreshToken) : Prop where
  id : t'.id = t.id
  tokenHash : t'.tokenHash = t.tokenHash
  familyId : t'.familyId = t.familyId
  code : t'.authorizationCodeId = t.authorizationCodeId
  rotated : t.rotatedToId ≠ none → t'.rotatedToId ≠ none
  revoked : t.revokedAt ≠ none → t'.revokedAt ≠ none

/-- A code and the same code later. -/
structure CodeLater (c c' : AuthorizationCode) : Prop where
  id : c'.id = c.id
  codeHash : c'.codeHash = c.codeHash
  used : c.usedAt ≠ none → c'.usedAt ≠ none

theorem TokenLater.refl (t : RefreshToken) : TokenLater t t := ⟨rfl, rfl, rfl, rfl, fun h => h, fun h => h⟩

theorem TokenLater.trans {t t' t'' : RefreshToken} (h : TokenLater t t') (h' : TokenLater t' t'') :
    TokenLater t t'' :=
  ⟨h'.id.trans h.id, h'.tokenHash.trans h.tokenHash, h'.familyId.trans h.familyId,
    h'.code.trans h.code, h'.rotated ∘ h.rotated, h'.revoked ∘ h.revoked⟩

theorem CodeLater.refl (c : AuthorizationCode) : CodeLater c c := ⟨rfl, rfl, fun h => h⟩

theorem CodeLater.trans {c c' c'' : AuthorizationCode} (h : CodeLater c c') (h' : CodeLater c' c'') :
    CodeLater c c'' := ⟨h'.id.trans h.id, h'.codeHash.trans h.codeHash, h'.used ∘ h.used⟩

/-- One of these commits has inserted the token. -/
def Inserted (entries : List (Entry ι Sharp)) (id : Uuid) : Prop :=
  ∃ j, ∃ db : Db, ∃ log, Entry.commit j db log ∈ entries ∧
    (∀ t ∈ db.refreshTokens, t.id ≠ id) ∧ ∃ t : RefreshToken, ⟨Table.refreshTokens, t⟩ ∈ log ∧ t.id = id

/-- What has happened between two states of the world. -/
structure Since (entries : List (Entry ι Sharp)) (w w' : World ι Sharp) : Prop where
  trace : w'.trace = entries ++ w.trace
  tokens : ∀ t ∈ w.db .refreshTokens, ∃ t' ∈ w'.db .refreshTokens, TokenLater t t'
  codes : ∀ c ∈ w.db .codes, ∃ c' ∈ w'.db .codes, CodeLater c c'
  added : ∀ t' ∈ w'.db .refreshTokens,
    (∃ t ∈ w.db .refreshTokens, RefreshToken.id t = RefreshToken.id t') ∨
      Inserted entries (RefreshToken.id t')

theorem Since.refl (w : World ι Sharp) : Since [] w w where
  trace := rfl
  tokens t ht := ⟨t, ht, .refl t⟩
  codes c hc := ⟨c, hc, .refl c⟩
  added t ht := .inl ⟨t, ht, rfl⟩

theorem Inserted.mono {entries entries' : List (Entry ι Sharp)} {id : Uuid} (h : Inserted entries id)
    (hsub : entries ⊆ entries') : Inserted entries' id := by
  obtain ⟨j, db, log, hmem, hrest⟩ := h
  exact ⟨j, db, log, hsub hmem, hrest⟩

theorem Since.trans {entries entries' : List (Entry ι Sharp)} {w w' w'' : World ι Sharp}
    (h : Since entries w w') (h' : Since entries' w' w'') : Since (entries' ++ entries) w w'' where
  trace := by rw [h'.trace, h.trace, List.append_assoc]
  tokens t ht := by
    obtain ⟨t', ht', hlater⟩ := h.tokens t ht
    obtain ⟨t'', ht'', hlater'⟩ := h'.tokens t' ht'
    exact ⟨t'', ht'', hlater.trans hlater'⟩
  codes c hc := by
    obtain ⟨c', hc', hlater⟩ := h.codes c hc
    obtain ⟨c'', hc'', hlater'⟩ := h'.codes c' hc'
    exact ⟨c'', hc'', hlater.trans hlater'⟩
  added t'' ht'' := by
    rcases h'.added t'' ht'' with ⟨t', ht', hid⟩ | hinserted
    · rw [← hid]
      exact (h.added t' ht').imp_right fun h => h.mono (List.subset_append_right _ _)
    · exact .inr (hinserted.mono (List.subset_append_left _ _))

theorem Since.note (w : World ι Sharp) (i : ι) (q : Stmt) (s : Db) :
    Since [.snapshot i q s] w (w.note i q s) :=
  { Since.refl w with trace := rfl, added := fun t ht => .inl ⟨t, ht, rfl⟩ }

/-- A commit whose versions are later than the rows they replace. -/
theorem Since.commit {w : World ι Sharp} {log : List (Version Sharp)} (i : ι)
    (htokens : ∀ t ∈ w.db .refreshTokens, ∀ t', (⟨Table.refreshTokens, t'⟩ : Version Sharp) ∈ log →
      RefreshToken.id t' = RefreshToken.id t → TokenLater t t')
    (hcodes : ∀ c ∈ w.db .codes, ∀ c', (⟨Table.codes, c'⟩ : Version Sharp) ∈ log →
      AuthorizationCode.id c' = AuthorizationCode.id c → CodeLater c c') :
    Since [.commit i w.db log] w (w.commit i log) where
  trace := rfl
  tokens t ht := by
    obtain ⟨t', ht', -, hlater⟩ := exists_install_of_mem (S := Sharp) (t := .refreshTokens)
      (R := TokenLater) TokenLater.refl ht fun t' hlog hkey => htokens t ht t' hlog (Sum.inl.inj hkey)
    exact ⟨t', ht', hlater⟩
  codes c hc := by
    obtain ⟨c', hc', -, hlater⟩ := exists_install_of_mem (S := Sharp) (t := .codes)
      (R := CodeLater) CodeLater.refl hc fun c' hlog hkey => hcodes c hc c' hlog (Sum.inl.inj hkey)
    exact ⟨c', hc', hlater⟩
  added t' ht' := by
    by_cases hold : ∃ t ∈ w.db .refreshTokens, RefreshToken.id t = RefreshToken.id t'
    · exact .inl hold
    · rcases mem_install ht' with hlog | ⟨ht', -⟩
      · exact .inr ⟨i, w.db, log, List.mem_singleton_self _,
          fun t ht hid => hold ⟨t, ht, hid⟩, t', hlog, rfl⟩
      · exact .inl ⟨t', ht', rfl⟩

/-- None of the entries is a lookup of a token by the thread. -/
def NoLookup (i : ι) (entries : List (Entry ι Sharp)) : Prop :=
  ∀ (tokenHash : String) (s : Db), Entry.snapshot i (Stmt.tokensFindByHash tokenHash) s ∉ entries

theorem NoLookup.append {i : ι} {entries entries' : List (Entry ι Sharp)} (h : NoLookup i entries)
    (h' : NoLookup i entries') : NoLookup i (entries' ++ entries) := fun tokenHash s hmem =>
  (List.mem_append.1 hmem).elim (h' tokenHash s) (h tokenHash s)

theorem NoLookup.commit (i j : ι) (db : Db) (log : List (Version Sharp)) :
    NoLookup i [.commit j db log] := fun _ _ hmem => by cases List.mem_singleton.1 hmem

/-- What has happened in between, and the thread has looked up no token. -/
def Later (i : ι) (w w' : World ι Sharp) : Prop := ∃ entries, Since entries w w' ∧ NoLookup i entries

theorem Later.refl (i : ι) (w : World ι Sharp) : Later i w w :=
  ⟨[], .refl w, fun _ _ hmem => by cases hmem⟩

theorem Later.trans {i : ι} {w w' w'' : World ι Sharp} (h : Later i w w') (h' : Later i w' w'') :
    Later i w w'' := by
  obtain ⟨entries, hsince, hnone⟩ := h
  obtain ⟨entries', hsince', hnone'⟩ := h'
  exact ⟨_, hsince.trans hsince', hnone.append hnone'⟩

/-- A lookup of the thread is a lookup of a token by another one, or of something else. -/
theorem Later.note {i j : ι} {q : Stmt} (h : j ≠ i ∨ ∀ tokenHash, q ≠ .tokensFindByHash tokenHash)
    (w : World ι Sharp) (s : Db) : Later i w (w.note j q s) := by
  refine ⟨_, .note w j q s, fun tokenHash s' hmem => ?_⟩
  cases List.mem_singleton.1 hmem
  exact h.elim (fun h => h rfl) fun h => h tokenHash rfl

theorem Later.lookups {i : ι} {w w' : World ι Sharp} (h : Later i w w') {tokenHash : String} {s : Db}
    (hmem : Entry.snapshot i (Stmt.tokensFindByHash tokenHash) s ∈ w'.trace) :
    Entry.snapshot i (Stmt.tokensFindByHash tokenHash) s ∈ w.trace := by
  obtain ⟨entries, hsince, hnone⟩ := h
  rw [hsince.trace] at hmem
  exact (List.mem_append.1 hmem).resolve_left (hnone tokenHash s)

/-- What the other threads have done in between. -/
def Meanwhile (i : ι) (w w' : World ι Sharp) : Prop :=
  ∃ entries, Since entries w w' ∧ ∀ e ∈ entries, Entry.thread e ≠ i

theorem Meanwhile.refl (i : ι) (w : World ι Sharp) : Meanwhile i w w :=
  ⟨[], .refl w, fun _ hmem => by cases hmem⟩

theorem Meanwhile.trans {i : ι} {w w' w'' : World ι Sharp} (h : Meanwhile i w w')
    (h' : Meanwhile i w' w'') : Meanwhile i w w'' := by
  obtain ⟨entries, hsince, hothers⟩ := h
  obtain ⟨entries', hsince', hothers'⟩ := h'
  exact ⟨_, hsince.trans hsince', fun e he => (List.mem_append.1 he).elim (hothers' e) (hothers e)⟩

theorem Meanwhile.later {i : ι} {w w' : World ι Sharp} (h : Meanwhile i w w') : Later i w w' := by
  obtain ⟨entries, hsince, hothers⟩ := h
  exact ⟨entries, hsince, fun _ _ hmem => hothers _ hmem rfl⟩

/-! ### What a commit does -/

/-- The claimed code. -/
def AuthorizationCode.usedBy (c : AuthorizationCode) (now : Instant) : AuthorizationCode :=
  { c with usedAt := some now }

/-- The revoked token. -/
def RefreshToken.revokedBy (t : RefreshToken) (now : Instant) : RefreshToken :=
  { t with revokedAt := some now }

/-- The rotated token. -/
def RefreshToken.rotatedTo (t : RefreshToken) (id : Uuid) : RefreshToken :=
  { t with rotatedToId := some id }

theorem TokenLater.revokedBy (t : RefreshToken) (now : Instant) : TokenLater t (t.revokedBy now) :=
  ⟨rfl, rfl, rfl, rfl, fun h => h, fun _ => by simp [RefreshToken.revokedBy]⟩

/-- The commits of a request that draws `d`. -/
inductive TokenCommit (st : AppState) (d : Draws) (db : Db) : List (Version Sharp) → Prop where
  | quiet (log : List (Version Sharp)) (h : ∀ v ∈ log, Quiet db v) : TokenCommit st d db log
  | claimed (record : AuthorizationCode) (hmem : record ∈ db.codes) (hunused : record.usedAt = none) :
      TokenCommit st d db [⟨Table.codes, record.usedBy d.now⟩]
  | redeemed (client : OAuthClient) (record : AuthorizationCode) (hmem : record ∈ db.codes)
      (hunused : record.usedAt = none) (hnew : ∀ t ∈ db.refreshTokens, t.id ≠ d.uuid 2) :
      TokenCommit st d db
        [⟨Table.codes, record.usedBy d.now⟩, ⟨Table.refreshTokens, firstToken st d client record⟩]
  | refreshed (client : OAuthClient) (record : RefreshToken) (hmem : record ∈ db.refreshTokens)
      (hok : record.checkUsable client.id d.now = .ok ())
      (hnew : ∀ t ∈ db.refreshTokens, t.id ≠ d.uuid 2) :
      TokenCommit st d db
        [⟨Table.refreshTokens, nextToken st d client record⟩,
          ⟨Table.refreshTokens, record.rotatedTo (d.uuid 2)⟩]
  | revoked (log : List (Version Sharp)) (h : ∀ v ∈ log, ∃ t ∈ db.refreshTokens,
      t.revokedAt = none ∧ v = ⟨Table.refreshTokens, t.revokedBy d.now⟩) : TokenCommit st d db log

/-- Rows only get later. -/
theorem TokenCommit.since {st : AppState} {d : Draws} {w : World ι Sharp} {log : List (Version Sharp)}
    (h : TokenCommit st d w.db log) (hdb : Sharp.Distinct w.db) (i : ι) :
    Since [.commit i w.db log] w (w.commit i log) := by
  have hcode {c c' : AuthorizationCode} (hc : c ∈ w.db .codes) (hc' : c' ∈ w.db .codes)
      (hid : c.id = c'.id) : c = c' :=
    hdb.rows .codes c c' hc hc' (sharp_keyed.clash_of_key .codes c c' (congrArg Sum.inl hid))
  have htoken {t t' : RefreshToken} (ht : t ∈ w.db .refreshTokens) (ht' : t' ∈ w.db .refreshTokens)
      (hid : t.id = t'.id) : t = t' :=
    hdb.rows .refreshTokens t t' ht ht'
      (sharp_keyed.clash_of_key .refreshTokens t t' (congrArg Sum.inl hid))
  cases h with
  | quiet _ h =>
      refine .commit i (fun t ht t' hlog _ => ?_) fun c hc c' hlog hid => ?_
      · cases h _ hlog with
        | other _ hcodes htokens => exact absurd rfl htokens
      · cases h _ hlog with
        | code _ hnew hunused => exact absurd hid.symm (hnew c hc)
        | other _ hcodes htokens => exact absurd rfl hcodes
  | claimed record hmem hunused =>
      refine .commit i (fun t ht t' hlog _ => ?_) fun c hc c' hlog hid => ?_
      · cases List.mem_singleton.1 hlog
      · cases List.mem_singleton.1 hlog
        rw [hcode hc hmem hid.symm]
        exact ⟨rfl, rfl, fun _ => by simp [AuthorizationCode.usedBy]⟩
  | redeemed client record hmem hunused hnew =>
      refine .commit i (fun t ht t' hlog hid => ?_) fun c hc c' hlog hid => ?_
      · rcases List.mem_cons.1 hlog with heq | hlog
        · cases heq
        · cases List.mem_singleton.1 hlog
          exact absurd hid.symm (hnew t ht)
      · rcases List.mem_cons.1 hlog with heq | hlog
        · cases heq
          rw [hcode hc hmem hid.symm]
          exact ⟨rfl, rfl, fun _ => by simp [AuthorizationCode.usedBy]⟩
        · cases List.mem_singleton.1 hlog
  | refreshed client record hmem hok hnew =>
      refine .commit i (fun t ht t' hlog hid => ?_) fun c hc c' hlog hid => ?_
      · rcases List.mem_cons.1 hlog with heq | hlog
        · cases heq
          exact absurd hid.symm (hnew t ht)
        · cases List.mem_singleton.1 hlog
          rw [htoken ht hmem hid.symm]
          exact ⟨rfl, rfl, rfl, rfl, fun _ => by simp [RefreshToken.rotatedTo], fun h => h⟩
      · rcases List.mem_cons.1 hlog with heq | hlog
        · cases heq
        · cases List.mem_singleton.1 hlog
  | revoked _ h =>
      refine .commit i (fun t ht t' hlog hid => ?_) fun c hc c' hlog hid => ?_
      · obtain ⟨u, hu, -, heq⟩ := h _ hlog
        cases heq
        rw [htoken ht hu hid.symm]
        exact .revokedBy u d.now
      · obtain ⟨u, hu, -, heq⟩ := h _ hlog
        cases heq

/-- The contract of the requests. -/
def tokenContract (st : AppState) (d : ι → Draws) : Contract ι Sharp where
  rely := Meanwhile
  guar i w log := TokenCommit st (d i) w.db log
  refl := Meanwhile.refl
  trans _ _ _ _ := Meanwhile.trans
  note _ j hne w q s := ⟨_, .note w j q s, List.forall_mem_singleton.2 hne⟩
  commit _ j hne _ _ hdb h := ⟨_, h.since hdb j, List.forall_mem_singleton.2 hne⟩

/-! ### Statements -/

/-- The flag of a redeemed code. -/
def CodeUsed (codeHash : String) (db : Db) : Prop :=
  ∃ c ∈ db.codes, c.codeHash = codeHash ∧ c.usedAt ≠ none

/-- The flag of a token that cannot be exchanged any more. -/
def TokenSpent (tokenHash : String) (db : Db) : Prop :=
  ∃ t ∈ db.refreshTokens, t.tokenHash = tokenHash ∧ (t.rotatedToId ≠ none ∨ t.revokedAt ≠ none)

section programs

variable {st : AppState} {d : ι → Draws} {i : ι} {w w' : World ι Sharp} {tx : Tx Sharp}
  {β : Type} {Q : Except AppError β → Tx Sharp → World ι Sharp → Prop}

/-- A lookup, outside or at the start of a transaction. -/
theorem select_safe (hQ : Contract.Tolerates Q) (htx : tx.log = []) {q : Stmt} {g : Db → Ret q}
    (hq : sem q = .select g) {f : Ret q → Service AppError β}
    (h : ∀ w₁, Later i w w₁ → Sharp.Distinct w₁.db →
      (tokenContract st d).Safe i Q (f (g w₁.db)) tx (w₁.note i q w₁.db)) :
    (tokenContract st d).Safe i Q (Prog.bind (query q) f) tx w := by
  refine Contract.safe_query hQ fun w₁ henv => .select hq ?_
  have hview : tx.view w₁.db = w₁.db := by rw [Tx.view, htx, install_nil]
  rw [hview]
  exact h w₁ henv.rely.later henv.distinct

/-- The transaction that has claimed a code. -/
def Tx.claiming (record : AuthorizationCode) (now : Instant) : Tx Sharp where
  log := [⟨Table.codes, record.usedBy now⟩]
  locks := [(Table.codes, .inl record.id)]
  explicit := true

/-- `UPDATE … RETURNING *`: the code is claimed, or there is none to claim. -/
theorem codesClaim_safe (hQ : Contract.Tolerates Q) {codeHash : String} {now : Instant}
    {f : Option AuthorizationCode → Service AppError β}
    (hnone : ∀ w, (tokenContract st d).Safe i Q (f none) { explicit := true } w)
    (hsome : ∀ record w, record ∈ w.db .codes → record.codeHash = codeHash → record.usedAt = none →
      (tokenContract st d).Safe i Q (f (some (record.usedBy now))) (.claiming record now) w) :
    (tokenContract st d).Safe i Q (Prog.bind (query (.codesClaim codeHash now)) f)
      { explicit := true } w := by
  refine Contract.safe_query hQ fun w₁ henv => ?_
  refine .scanOne henv.distinct (c := ⟨Table.codes,
    fun _ (r : AuthorizationCode) => r.codeHash = codeHash ∧ r.usedAt = none,
    some fun r : AuthorizationCode => { r with usedAt := some now }, List.head?⟩) rfl ?_
    (fun w => Contract.resumes_error hQ) (fun w' _ => .explicit rfl (hnone w'))
    fun record w₂ w' _ hrecord hp henv' => .explicit rfl ?_
  · refine Contract.search_le_one (S := Sharp) (t := Table.codes) henv.distinct rfl fun x y hx hy => ?_
    simp only [decide_eq_true_eq] at hx hy
    simp [clash, hx.1, hy.1]
  · simp only [decide_eq_true_eq] at hp
    refine hsome record w' ((henv'.locked .codes record ?_).2 hrecord) hp.1 hp.2
    exact List.mem_cons_self

/-- The transaction that holds a token. -/
def Tx.holding (record : RefreshToken) : Tx Sharp where
  locks := [(Table.refreshTokens, .inl record.id)]
  explicit := true

/-- `SELECT … FOR UPDATE` -/
theorem tokensLock_safe (hQ : Contract.Tolerates Q) {tokenHash : String}
    {f : Option RefreshToken → Service AppError β}
    (hnone : ∀ w, (tokenContract st d).Safe i Q (f none) { explicit := true } w)
    (hsome : ∀ record w, record ∈ w.db .refreshTokens → record.tokenHash = tokenHash →
      (tokenContract st d).Safe i Q (f (some record)) (.holding record) w) :
    (tokenContract st d).Safe i Q (Prog.bind (query (.tokensFindByHashForUpdate tokenHash)) f)
      { explicit := true } w := by
  refine Contract.safe_query hQ fun w₁ henv => ?_
  refine .scanOne henv.distinct (c := ⟨Table.refreshTokens,
    fun _ (r : RefreshToken) => r.tokenHash = tokenHash, none, List.head?⟩) rfl ?_
    (fun w => Contract.resumes_error hQ) (fun w' _ => .explicit rfl (hnone w'))
    fun record w₂ w' _ hrecord hp henv' => .explicit rfl ?_
  · refine Contract.search_le_one (S := Sharp) (t := Table.refreshTokens) henv.distinct rfl fun x y hx hy => ?_
    rw [decide_eq_true_eq] at hx hy
    simp [clash, hx, hy]
  · rw [decide_eq_true_eq] at hp
    refine hsome record w' ((henv'.locked .refreshTokens record ?_).2 hrecord) hp
    exact List.mem_cons_self

/-- The rows that a transaction has locked stay as they are. -/
def KeepsLocked (tx : Tx Sharp) (w w' : World ι Sharp) : Prop :=
  ∀ t (r : Row t), (t, key t r) ∈ tx.locks → (r ∈ w'.db t ↔ r ∈ w.db t)

/-- A new token. -/
theorem tokensInsert_safe (hQ : Contract.Tolerates Q) (htx : tx.explicit = true) {t : RefreshToken}
    {f : Unit → Service AppError β}
    (h : ∀ w', KeepsLocked tx w w' → (∀ x ∈ w'.db .refreshTokens, RefreshToken.id x ≠ t.id) →
      (tokenContract st d).Safe i Q (f ()) (tx.write ⟨Table.refreshTokens, t⟩) w') :
    (tokenContract st d).Safe i Q (Prog.bind (query (.tokensInsert t)) f) tx w := by
  refine Contract.safe_query hQ fun w₁ henv => ?_
  refine .insert rfl (Contract.resumes_error hQ) fun hclash => .explicit htx ?_
  refine h _ henv.locked fun x hx hid => ?_
  exact Contract.key_ne_of_view sharp_keyed (t := Table.refreshTokens) hclash x hx (congrArg Sum.inl hid)

/-- The token in hand is marked as rotated. -/
theorem tokensMarkRotated_safe (hQ : Contract.Tolerates Q) (htx : tx.explicit = true)
    {record : RefreshToken} (hrecord : record ∈ w.db .refreshTokens)
    (hlock : (Table.refreshTokens, .inl record.id) ∈ tx.locks)
    (hlog : ∀ v ∈ tx.log, v.id ≠ (Table.refreshTokens, .inl record.id)) {next : Uuid}
    {f : Unit → Service AppError β}
    (h : ∀ w', KeepsLocked tx w w' → (tokenContract st d).Safe i Q (f ())
      (tx.write ⟨Table.refreshTokens, record.rotatedTo next⟩) w') :
    (tokenContract st d).Safe i Q (Prog.bind (query (.tokensMarkRotated record.id next)) f) tx w := by
  refine Contract.safe_query hQ fun w₁ henv => ?_
  have hview (w₁ : World ι Sharp) (hkept : KeepsLocked tx w w₁) : record ∈ tx.view w₁.db .refreshTokens :=
    (mem_install_of_ne (S := Sharp) (t := .refreshTokens) hlog).2 ((hkept .refreshTokens record hlock).2 hrecord)
  refine .scanOne henv.distinct (c := ⟨Table.refreshTokens, fun _ (r : RefreshToken) => r.id = record.id,
    some fun r : RefreshToken => { r with rotatedToId := some next }, fun _ => ()⟩) rfl ?_
    (fun w => Contract.resumes_error hQ) (fun w' hseen => ?_)
    fun r w₂ w' henv₂ hr hp henv' => .explicit htx ?_
  · refine Contract.length_filter_le_one (Locking.keyed_install _ henv.distinct.keys .refreshTokens).of_map
      fun x hx y hy hpx hpy => ?_
    refine Locking.eq_of_key (Locking.keyed_install _ henv.distinct.keys .refreshTokens) hx hy ?_
    rw [decide_eq_true_eq] at hpx hpy
    exact congrArg Sum.inl (hpx.trans hpy.symm)
  · obtain ⟨w₂, henv₂, hnot⟩ := hseen record (hview w₁ henv.locked) (by simp)
    have hfalse := hnot record (hview w₂ fun t r hr => (henv₂.locked t r hr).trans (henv.locked t r hr)) rfl
    simp at hfalse
  · rw [decide_eq_true_eq] at hp
    have hkept₂ : KeepsLocked tx w w₂ := fun t r hr => (henv₂.locked t r hr).trans (henv.locked t r hr)
    have heq : r = record :=
      Contract.eq_of_key_view henv₂.distinct hr (hview w₂ hkept₂) (congrArg Sum.inl hp)
    rw [heq] at henv' ⊢
    exact h w' fun t r hr => (henv'.locked t r (List.mem_cons_of_mem _ hr)).trans (hkept₂ t r hr)

/-! ### Revoking tokens -/

/-- The statements that revoke tokens. -/
inductive Stmt.RevokesTokens : Stmt → Prop where
  | family (familyId : Uuid) (now : Instant) : RevokesTokens (.tokensRevokeFamily familyId now)
  | code (codeId : Uuid) (now : Instant) : RevokesTokens (.tokensRevokeByAuthorizationCode codeId now)

def Stmt.revokesTokens : Stmt → Bool
  | .tokensRevokeFamily _ _ | .tokensRevokeByAuthorizationCode _ _ => true
  | _ => false

theorem Stmt.revokesTokens_iff {q : Stmt} : q.revokesTokens = true ↔ q.RevokesTokens := by
  constructor
  · intro h
    cases q with
    | tokensRevokeFamily familyId now => exact .family familyId now
    | tokensRevokeByAuthorizationCode codeId now => exact .code codeId now
    | _ => cases h
  · rintro (_ | _) <;> rfl

theorem Stmt.RevokesTokens.ne_lookup {q : Stmt} (h : q.RevokesTokens) (tokenHash : String) :
    q ≠ .tokensFindByHash tokenHash := by
  rintro rfl
  cases h

/-- Every selected token is revoked, or has been inserted since the thread began to revoke them. -/
def Sweeps (i : ι) (sel : RefreshToken → Prop) (w : World ι Sharp) : Prop :=
  ∃ later q s earlier, Stmt.RevokesTokens q ∧ w.trace = later ++ .snapshot i q s :: earlier ∧
    ∀ t ∈ w.db .refreshTokens, sel t → RefreshToken.revokedAt t ≠ none ∨
      Inserted later (RefreshToken.id t)

/-- The thread has just committed such an `UPDATE`.  Every selected token is revoked, or others have
inserted it since the `UPDATE` began. -/
def Swept (i : ι) (sel : RefreshToken → Prop) (w : World ι Sharp) : Prop :=
  ∃ q s db log mid earlier, Stmt.RevokesTokens q ∧ w.db = install log db ∧
    w.trace = .commit i db log :: (mid ++ .snapshot i q s :: earlier) ∧
    (∀ e ∈ mid, Entry.thread e ≠ i) ∧
    ∀ t ∈ w.db .refreshTokens, sel t → RefreshToken.revokedAt t ≠ none ∨ Inserted mid (RefreshToken.id t)

theorem Swept.sweeps {sel : RefreshToken → Prop} (h : Swept i sel w) : Sweeps i sel w := by
  obtain ⟨q, s, db, log, mid, earlier, hq, -, htrace, -, hswept⟩ := h
  refine ⟨.commit i db log :: mid, q, s, earlier, hq, htrace, fun t ht hsel => ?_⟩
  exact (hswept t ht hsel).imp_right fun h => h.mono (List.subset_cons_self _ _)

/-- An `UPDATE` that revokes all selected tokens it finds. -/
structure Revokes (q : Stmt) (p : Db → RefreshToken → Bool) (now : Instant)
    (out : List RefreshToken → Ret q) (sel : RefreshToken → Prop) : Prop where
  sem : sem q = .update Table.refreshTokens p (fun t : RefreshToken => t.revokedBy now) out
  revokes : q.RevokesTokens
  unrevoked : ∀ s t, p s t = true → t.revokedAt = none
  selected : ∀ s : Db, ∀ t ∈ s.refreshTokens, sel t → ∀ t', TokenLater t t' → t'.revokedAt = none →
    p s t' = true
  stable : ∀ t t', TokenLater t t' → sel t' → sel t

/-- The state of such an `UPDATE` that started in the world `w₀`. -/
structure Sweeping (i : ι) (now : Instant) (sel : RefreshToken → Prop) (w₀ : World ι Sharp)
    (explicit : Bool) (todo : List (Uuid ⊕ String)) (tx : Tx Sharp) (w : World ι Sharp) : Prop where
  explicit : tx.explicit = explicit
  since : Meanwhile i w₀ w
  log : ∀ v ∈ tx.log, ∃ t ∈ w.db .refreshTokens, RefreshToken.revokedAt t = none ∧
    v = ⟨Table.refreshTokens, RefreshToken.revokedBy t now⟩ ∧ v.id ∈ tx.locks
  rows : ∀ t ∈ w₀.db .refreshTokens, sel t → .inl (RefreshToken.id t) ∈ todo ∨
    ∃ t' ∈ tx.view w.db .refreshTokens, RefreshToken.id t' = RefreshToken.id t ∧
      RefreshToken.revokedAt t' ≠ none

namespace Sweeping

variable {now : Instant} {sel : RefreshToken → Prop} {w₀ : World ι Sharp} {explicit : Bool}
  {todo : List (Uuid ⊕ String)}

/-- Revoked tokens stay in sight. -/
theorem env (h : Sweeping i now sel w₀ explicit todo tx w) (henv : (tokenContract st d).Env i tx w w') :
    Sweeping i now sel w₀ explicit todo tx w' := by
  obtain ⟨entries', hsince', -⟩ := henv.rely
  refine ⟨h.explicit, h.since.trans henv.rely, fun v hv => ?_, fun t ht hsel => ?_⟩
  · obtain ⟨t, ht, hrevoked, rfl, hlock⟩ := h.log v hv
    exact ⟨t, (henv.locked .refreshTokens t hlock).2 ht, hrevoked, rfl, hlock⟩
  · refine (h.rows t ht hsel).imp_right fun ⟨t', ht', hid, hrevoked⟩ => ?_
    rcases mem_install_iff.1 ht' with hlog | ⟨ht', hne⟩
    · exact ⟨t', mem_install_iff.2 (.inl hlog), hid, hrevoked⟩
    · obtain ⟨t'', ht'', hlater⟩ := hsince'.tokens t' ht'
      refine ⟨t'', mem_install_iff.2 (.inr ⟨ht'', fun v hv => ?_⟩), hlater.id.trans hid,
        hlater.revoked hrevoked⟩
      have hkey : key .refreshTokens t'' = key .refreshTokens t' := congrArg Sum.inl hlater.id
      show v.id ≠ (Table.refreshTokens, key .refreshTokens t'')
      rw [hkey]
      exact hne v hv

/-- What the transaction sees of a token. -/
theorem view (h : Sweeping i now sel w₀ explicit todo tx w) (hdb : Sharp.Distinct w.db)
    {t : RefreshToken} (ht : t ∈ w.db .refreshTokens) :
    ∃ t' ∈ tx.view w.db .refreshTokens, TokenLater t t' := by
  have hlog : ∀ t', (⟨Table.refreshTokens, t'⟩ : Version Sharp) ∈ tx.log →
      key .refreshTokens t' = key .refreshTokens t → TokenLater t t' := by
    intro t' hlog hkey
    obtain ⟨u, hu, -, heq, -⟩ := h.log _ hlog
    cases heq
    rw [Locking.eq_of_key (hdb.keys .refreshTokens) ht hu hkey.symm]
    exact .revokedBy u now
  obtain ⟨t', ht', -, hlater⟩ := exists_install_of_mem (S := Sharp) (t := .refreshTokens)
    (R := TokenLater) TokenLater.refl ht hlog
  exact ⟨t', ht', hlater⟩

/-- A token that does not meet the condition any more. -/
theorem skip {q : Stmt} {p : Db → RefreshToken → Bool} {out : List RefreshToken → Ret q}
    (hq : Revokes q p now out sel) {k : Uuid ⊕ String}
    (h : Sweeping i now sel w₀ explicit (k :: todo) tx w) (hdb : Sharp.Distinct w.db)
    (hskip : ∀ r ∈ tx.view w.db .refreshTokens, key .refreshTokens r = k → p w₀.db r = false) :
    Sweeping i now sel w₀ explicit todo tx w := by
  refine ⟨h.explicit, h.since, h.log, fun t ht hsel => ?_⟩
  rcases h.rows t ht hsel with hkey | hrow
  · rcases List.mem_cons.1 hkey with rfl | hkey
    · obtain ⟨entries, hsince, -⟩ := h.since
      obtain ⟨t₁, ht₁, hlater₁⟩ := hsince.tokens t ht
      obtain ⟨t₂, ht₂, hlater₂⟩ := h.view hdb ht₁
      have hlater := hlater₁.trans hlater₂
      refine .inr ⟨t₂, ht₂, hlater.id, fun hnone => ?_⟩
      have hp := hq.selected w₀.db t ht hsel t₂ hlater hnone
      rw [hskip t₂ ht₂ (congrArg Sum.inl hlater.id)] at hp
      cases hp
    · exact .inl hkey
  · exact .inr hrow

/-- A token is revoked. -/
theorem take {q : Stmt} {p : Db → RefreshToken → Bool} {out : List RefreshToken → Ret q}
    (hq : Revokes q p now out sel) {r : RefreshToken}
    (h : Sweeping i now sel w₀ explicit (.inl r.id :: todo) tx w)
    (hr : r ∈ tx.view w.db .refreshTokens) (hp : p w₀.db r = true) :
    Sweeping i now sel w₀ explicit todo (tx.write ⟨Table.refreshTokens, r.revokedBy now⟩) w := by
  have hnone := hq.unrevoked _ _ hp
  refine ⟨h.explicit, h.since, fun v hv => ?_, fun t ht hsel => ?_⟩
  · rcases List.mem_append.1 hv with hv | hv
    · obtain ⟨t, ht, hrevoked, rfl, hlock⟩ := h.log v hv
      exact ⟨t, ht, hrevoked, rfl, List.mem_cons_of_mem _ hlock⟩
    · obtain rfl := List.mem_singleton.1 hv
      rcases mem_install hr with hlog | ⟨hr, -⟩
      · obtain ⟨t, -, -, heq, -⟩ := h.log _ hlog
        cases heq
        simp [RefreshToken.revokedBy] at hnone
      · exact ⟨r, hr, hnone, rfl, List.mem_cons_self⟩
  · have hview {t' : RefreshToken} : t' ∈ (tx.write ⟨Table.refreshTokens, r.revokedBy now⟩).view w.db .refreshTokens ↔
        r.revokedBy now = t' ∨ t' ∈ tx.view w.db .refreshTokens ∧ r.id ≠ t'.id := by
      rw [Tx.view, Tx.write, install_concat, mem_put_iff]
      simp [Version.id, Tx.view, RefreshToken.revokedBy, key]
    have htaken (hid : r.id = t.id) : ∃ t' ∈ (tx.write ⟨Table.refreshTokens, r.revokedBy now⟩).view
        w.db .refreshTokens, RefreshToken.id t' = RefreshToken.id t ∧ RefreshToken.revokedAt t' ≠ none :=
      ⟨r.revokedBy now, hview.2 (.inl rfl), hid, by simp [RefreshToken.revokedBy]⟩
    rcases h.rows t ht hsel with hkey | ⟨t', ht', hid, hrevoked⟩
    · rcases List.mem_cons.1 hkey with heq | hkey
      · exact .inr (htaken (Sum.inl.inj heq).symm)
      · exact .inl hkey
    · by_cases hr' : r.id = t.id
      · exact .inr (htaken hr')
      · exact .inr ⟨t', hview.2 (.inr ⟨ht', fun h => hr' (h.trans hid)⟩), hid, hrevoked⟩

/-- The rest of the selected tokens are new. -/
theorem swept {q : Stmt} {p : Db → RefreshToken → Bool} {out : List RefreshToken → Ret q}
    (hq : Revokes q p now out sel) {w₁ : World ι Sharp} {s : Db} (hw₀ : w₀ = w₁.note i q s)
    (h : Sweeping i now sel w₀ explicit [] tx w) (hdb : Sharp.Distinct w.db)
    (hsince : Since [.commit i w.db tx.log] w (w.commit i tx.log)) :
    Swept i sel (w.commit i tx.log) := by
  obtain ⟨entries, hsince₀, hothers⟩ := h.since
  have hall := hsince₀.trans hsince
  subst hw₀
  refine ⟨q, s, w.db, tx.log, entries, w₁.trace, hq.revokes, rfl,
    congrArg (List.cons _) hsince₀.trace, hothers, fun t ht hsel => ?_⟩
  -- The `UPDATE` itself inserts nothing.
  have hold : ∃ u ∈ w.db .refreshTokens, RefreshToken.id u = RefreshToken.id t := by
    rcases mem_install ht with hlog | ⟨ht, -⟩
    · obtain ⟨u, hu, -, heq, -⟩ := h.log _ hlog
      cases heq
      exact ⟨u, hu, rfl⟩
    · exact ⟨t, ht, rfl⟩
  obtain ⟨u, hu, huid⟩ := hold
  rcases hsince₀.added u hu with ⟨t₀, ht₀, hid⟩ | hinserted
  · have hid := hid.trans huid
    have hkeys := Locking.keyed_install tx.log hdb.keys .refreshTokens
    obtain ⟨t₁, ht₁, hlater⟩ := hall.tokens t₀ ht₀
    obtain rfl : t₁ = t := Locking.eq_of_key hkeys ht₁ ht (congrArg Sum.inl (hlater.id.trans hid))
    rcases h.rows t₀ ht₀ (hq.stable t₀ t₁ hlater hsel) with hkey | ⟨t₂, ht₂, hid₂, hrevoked⟩
    · exact absurd hkey List.not_mem_nil
    · obtain rfl : t₂ = t₁ := Locking.eq_of_key hkeys ht₂ ht (congrArg Sum.inl (hid₂.trans hid))
      exact .inl hrevoked
  · exact .inr (huid ▸ hinserted)

end Sweeping

/-- What is selected and not new is revoked when the `UPDATE` commits. -/
theorem Sweeping.commits {q : Stmt} {p : Db → RefreshToken → Bool} {out : List RefreshToken → Ret q}
    {sel : RefreshToken → Prop} (hq : Revokes q p (d i).now out sel) {explicit : Bool}
    {w₁ : World ι Sharp} {s : Db}
    (h : Sweeping i (d i).now sel (w₁.note i q s) explicit [] tx w) (hdb : Sharp.Distinct w.db)
    {P : Tx Sharp → World ι Sharp → Prop}
    (hP : ∀ w', Later i w₁ w' → Swept i sel w' → P {} w') :
    (tokenContract st d).Commits i tx w P := by
  have hguar : TokenCommit st (d i) w.db tx.log := .revoked _ fun v hv => by
    obtain ⟨t, ht, hrevoked, heq, -⟩ := h.log v hv
    exact ⟨t, ht, hrevoked, heq⟩
  have hsince := hguar.since hdb i
  have hnote : Later i w₁ (w₁.note i q s) := .note (.inr hq.revokes.ne_lookup) w₁ s
  exact ⟨hguar, hP _ ((hnote.trans h.since.later).trans ⟨_, hsince, .commit i i w.db tx.log⟩)
    (h.swept hq rfl hdb hsince)⟩

/-- An `UPDATE` that revokes tokens. -/
theorem revoke_query {q : Stmt} {p : Db → RefreshToken → Bool} {now : Instant}
    {out : List RefreshToken → Ret q} {sel : RefreshToken → Prop} (hq : Revokes q p now out sel)
    (hQ : Contract.Tolerates Q) (htx : tx.log = []) {f : Ret q → Service AppError β}
    (h : ∀ w₁ w' tx' r, Later i w w₁ →
      Sweeping i now sel (World.note w₁ i q w₁.db) tx.explicit [] tx' w' → Sharp.Distinct w'.db →
        (tokenContract st d).Answers i tx' w' ((tokenContract st d).Safe i Q (f r))) :
    (tokenContract st d).Safe i Q (Prog.bind (query q) f) tx w := by
  refine Contract.safe_query hQ fun w₁ henv => ?_
  have hview : tx.view w₁.db = w₁.db := by rw [Tx.view, htx, install_nil]
  refine .scan (c := ⟨Table.refreshTokens, p, some fun t : RefreshToken => t.revokedBy now, out⟩)
    (by rw [show Sharp.sem q = _ from hq.sem]; rfl)
    (fun todo _ => Sweeping i now sel (w₁.note i q w₁.db) tx.explicit todo) ?_ ?_ ?_ ?_
    (fun w => Contract.resumes_error hQ) fun found tx' w' hdb hsweep => ?_
  · rw [hview]
    refine ⟨rfl, .refl i _, fun v hv => ?_, fun t ht hsel => ?_⟩
    · rw [htx] at hv
      exact absurd hv List.not_mem_nil
    · by_cases hnone : RefreshToken.revokedAt t = none
      · refine .inl (List.mem_map_of_mem (f := key .refreshTokens) (List.mem_filter.2 ⟨ht, ?_⟩))
        exact hq.selected w₁.db t ht hsel t (.refl t) hnone
      · exact .inr ⟨t, by rw [World.note, hview]; exact ht, rfl, hnone⟩
  · exact fun todo _ tx' w' w'' h henv => h.env henv
  · intro k rest _ tx' w' hdb hsweep hskip
    rw [hview] at hskip
    exact hsweep.skip hq hdb hskip
  · intro r rest _ tx' w' hdb hsweep hr hp
    rw [hview] at hp
    exact hsweep.take hq hr hp
  · exact h w₁ w' tx' _ henv.rely.later hsweep hdb

/-- **A replay** revokes tokens and commits. -/
theorem revoke_commit_safe {q : Stmt} {p : Db → RefreshToken → Bool}
    {out : List RefreshToken → Ret q} {sel : RefreshToken → Prop}
    (hq : Revokes q p (d i).now out sel) (hQ : Contract.Tolerates Q) (htx : tx.log = [])
    (hexplicit : tx.explicit = true) {f : Unit → Service AppError β}
    (h : ∀ w', Later i w w' → Swept i sel w' →
      (tokenContract st d).Safe i Q (f ()) {} w') :
    (tokenContract st d).Safe i Q (Prog.bind (query q) fun _ => Prog.bind Handler.commit f) tx w := by
  refine revoke_query hq hQ htx fun w₁ w' tx' _ hsince hsweep _ => ?_
  refine .explicit (hsweep.explicit.trans hexplicit) (Contract.safe_commit hQ fun w'' henv => ?_)
  exact (hsweep.env henv).commits hq henv.distinct fun w₂ hsince₂ hswept =>
    h w₂ (hsince.trans hsince₂) hswept

theorem revokes_family (familyId : Uuid) (now : Instant) :
    Revokes (.tokensRevokeFamily familyId now)
      (fun _ t => t.familyId = familyId ∧ t.revokedAt = none) now List.length
      (fun t => t.familyId = familyId) where
  sem := rfl
  revokes := .family familyId now
  unrevoked s t hp := by simpa using (of_decide_eq_true hp).2
  selected s t _ hsel t' hlater hnone := by simp [hlater.familyId, hsel, hnone]
  stable t t' hlater hsel := hlater.familyId ▸ hsel

theorem revokes_code (codeId : Uuid) (now : Instant) :
    Revokes (.tokensRevokeByAuthorizationCode codeId now)
      (fun s t => (s.refreshTokens.any fun b : RefreshToken =>
        b.authorizationCodeId = some codeId ∧ b.familyId = t.familyId) ∧ t.revokedAt = none)
      now List.length (fun t => t.authorizationCodeId = some codeId) where
  sem := rfl
  revokes := .code codeId now
  unrevoked s t hp := by simpa using (of_decide_eq_true hp).2
  selected s t ht hsel t' hlater hnone := by
    have hany : s.refreshTokens.any (fun b : RefreshToken =>
        b.authorizationCodeId = some codeId ∧ b.familyId = t'.familyId) = true :=
      List.any_eq_true.2 ⟨t, ht, by simp [hsel, hlater.familyId]⟩
    exact decide_eq_true ⟨hany, hnone⟩
  stable t t' hlater hsel := hlater.code ▸ hsel

end programs

end SharpOauth
