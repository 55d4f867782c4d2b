import SharpOauth.Links
import SharpOauth.Effects

/-! # Refresh-token families

The rows of a family are the successive tokens of one authorization.  `Families db` says how
they hang together; the operations that write to the table (a first token, a rotation, a
revocation, the deletion of a client) preserve it one by one, and so does every run
(`Run.familyInv`).

Once a family is revoked it stays so (`Dead`), which is what a replay brings about. -/

namespace SharpOauth

open Token

/-! ### The invariant -/

/-- The rows of one family, as one chain of rotations. -/
structure Chain (rows : List RefreshToken) (familyId : Uuid) (l : List RefreshToken) : Prop where
  mem_iff : ∀ x, x ∈ l ↔ x ∈ rows ∧ x.familyId = familyId
  nodup : (l.map (·.id)).Nodup
  linked : Linked (·.id) (·.rotatedToId) l

/-- What all tokens of a family share. -/
structure SameGrant (t u : RefreshToken) : Prop where
  clientId : t.clientId = u.clientId
  userId : t.userId = u.userId
  scope : t.scope = u.scope
  authTime : t.authTime = u.authTime
  authorizationCodeId : t.authorizationCodeId = u.authorizationCodeId

theorem SameGrant.symm {t u : RefreshToken} (h : SameGrant t u) : SameGrant u t :=
  ⟨h.clientId.symm, h.userId.symm, h.scope.symm, h.authTime.symm, h.authorizationCodeId.symm⟩

theorem SameGrant.trans {t u v : RefreshToken} (h : SameGrant t u) (h' : SameGrant u v) :
    SameGrant t v :=
  ⟨h.clientId.trans h'.clientId, h.userId.trans h'.userId, h.scope.trans h'.scope,
    h.authTime.trans h'.authTime, h.authorizationCodeId.trans h'.authorizationCodeId⟩

/-- The refresh tokens come in families. -/
structure Families (rows : List RefreshToken) : Prop where
  chain : ∀ t ∈ rows, ∃ l, Chain rows t.familyId l
  sameGrant : ∀ t ∈ rows, ∀ u ∈ rows, t.familyId = u.familyId → SameGrant t u
  oneFamily : ∀ t ∈ rows, ∀ u ∈ rows, ∀ code, t.authorizationCodeId = some code →
    u.authorizationCodeId = some code → t.familyId = u.familyId
  revoked : ∀ t ∈ rows, ∀ u ∈ rows, t.familyId = u.familyId →
    (t.revokedAt = none ↔ u.revokedAt = none)
  lifetime : ∀ t ∈ rows, t.expiresAt = t.createdAt + Duration.days 30

/-- No token of the family is unrevoked. -/
def Dead (familyId : Uuid) (rows : List RefreshToken) : Prop :=
  ∀ t ∈ rows, t.familyId = familyId → t.revokedAt ≠ none

/-- A revoked token keeps the time of its revocation. -/
def RevocationKept (rows rows' : List RefreshToken) : Prop :=
  ∀ t ∈ rows, ∀ t' ∈ rows', t'.id = t.id → ∀ time, t.revokedAt = some time → t'.revokedAt = some time

/-! ### The operations -/

/-- A change that keeps the ids and links, and treats the rows of a family alike. -/
structure Relabels (rows : List RefreshToken) (f : RefreshToken → RefreshToken) : Prop where
  id : ∀ t, (f t).id = t.id
  familyId : ∀ t, (f t).familyId = t.familyId
  rotatedToId : ∀ t, (f t).rotatedToId = t.rotatedToId
  createdAt : ∀ t, (f t).createdAt = t.createdAt
  expiresAt : ∀ t, (f t).expiresAt = t.expiresAt
  sameGrant : ∀ t u, SameGrant t u → SameGrant (f t) (f u)
  code : ∀ t code, (f t).authorizationCodeId = some code → t.authorizationCodeId = some code
  revoked : ∀ t ∈ rows, ∀ u ∈ rows, t.familyId = u.familyId →
    ((f t).revokedAt = none ↔ (f u).revokedAt = none)

namespace Families

variable {rows : List RefreshToken}

/-- Revocation, and the deletion of a client. -/
theorem relabel (h : Families rows) (keep : RefreshToken → Bool)
    (hkeep : ∀ t ∈ rows, ∀ u ∈ rows, t.familyId = u.familyId → keep t = keep u)
    {f : RefreshToken → RefreshToken} (hf : Relabels rows f) :
    Families ((rows.filter keep).map f) := by
  have hmem (x : RefreshToken) (hx : x ∈ (rows.filter keep).map f) :
      ∃ t ∈ rows, keep t = true ∧ f t = x := by
    obtain ⟨t, ht, rfl⟩ := List.mem_map.1 hx
    exact ⟨t, (List.mem_filter.1 ht).1, (List.mem_filter.1 ht).2, rfl⟩
  constructor
  case chain =>
    intro x hx
    obtain ⟨t, ht, hkt, rfl⟩ := hmem x hx
    obtain ⟨l, hl⟩ := h.chain t ht
    refine ⟨l.map f, ⟨fun y => ?_, ?_, ?_⟩⟩
    · constructor
      · intro hy
        obtain ⟨u, hu, rfl⟩ := List.mem_map.1 hy
        obtain ⟨hu, hfamily⟩ := (hl.mem_iff u).1 hu
        refine ⟨List.mem_map_of_mem (List.mem_filter.2 ⟨hu, ?_⟩), ?_⟩
        · rw [hkeep u hu t ht hfamily, hkt]
        · rw [hf.familyId, hf.familyId, hfamily]
      · rintro ⟨hy, hfamily⟩
        obtain ⟨u, hu, hku, rfl⟩ := hmem y hy
        rw [hf.familyId, hf.familyId] at hfamily
        exact List.mem_map_of_mem ((hl.mem_iff u).2 ⟨hu, hfamily⟩)
    · rw [List.map_map, show (fun x : RefreshToken => x.id) ∘ f = (·.id) from funext hf.id]
      exact hl.nodup
    · exact hl.linked.map hf.id hf.rotatedToId
  case sameGrant =>
    intro x hx y hy hxy
    obtain ⟨t, ht, -, rfl⟩ := hmem x hx
    obtain ⟨u, hu, -, rfl⟩ := hmem y hy
    rw [hf.familyId, hf.familyId] at hxy
    exact hf.sameGrant t u (h.sameGrant t ht u hu hxy)
  case oneFamily =>
    intro x hx y hy code hxc hyc
    obtain ⟨t, ht, -, rfl⟩ := hmem x hx
    obtain ⟨u, hu, -, rfl⟩ := hmem y hy
    rw [hf.familyId, hf.familyId]
    exact h.oneFamily t ht u hu code (hf.code t code hxc) (hf.code u code hyc)
  case revoked =>
    intro x hx y hy hxy
    obtain ⟨t, ht, -, rfl⟩ := hmem x hx
    obtain ⟨u, hu, -, rfl⟩ := hmem y hy
    rw [hf.familyId, hf.familyId] at hxy
    exact hf.revoked t ht u hu hxy
  case lifetime =>
    intro x hx
    obtain ⟨t, ht, -, rfl⟩ := hmem x hx
    rw [hf.expiresAt, hf.createdAt]
    exact h.lifetime t ht

theorem revoke (h : Families rows) {p : RefreshToken → Bool}
    (hp : ∀ t ∈ rows, ∀ u ∈ rows, t.familyId = u.familyId → p t = p u) (now : Instant) :
    Families (rows.map (·.revokeIf p now)) := by
  have hrelabel : Relabels rows (·.revokeIf p now) := by
    constructor
    case sameGrant =>
      intro t u htu
      simp only [RefreshToken.revokeIf]
      split_ifs <;> exact ⟨htu.clientId, htu.userId, htu.scope, htu.authTime, htu.authorizationCodeId⟩
    case revoked =>
      intro t ht u hu htu
      have hrevoked := h.revoked t ht u hu htu
      simp only [RefreshToken.revokeIf, hp t ht u hu htu]
      split_ifs <;> simp_all
    all_goals
      intro t
      simp only [RefreshToken.revokeIf]
      split_ifs <;> simp
  have hall := h.relabel (fun _ => true) (fun _ _ _ _ _ => rfl) hrelabel
  rwa [List.filter_true] at hall

/-- The first token of a new family. -/
theorem born (h : Families rows) {t : RefreshToken} (hfamily : ∀ u ∈ rows, u.familyId ≠ t.familyId)
    (hcode : ∀ u ∈ rows, ∀ code, t.authorizationCodeId = some code →
      u.authorizationCodeId ≠ some code)
    (hlast : t.rotatedToId = none) (hlifetime : t.expiresAt = t.createdAt + Duration.days 30) :
    Families (rows ++ [t]) := by
  have hmem (x : RefreshToken) (hx : x ∈ rows ++ [t]) : x ∈ rows ∨ x = t := by simpa using hx
  constructor
  case chain =>
    intro x hx
    rcases hmem x hx with hx' | rfl
    · obtain ⟨l, hl⟩ := h.chain x hx'
      refine ⟨l, ⟨fun y => ?_, hl.nodup, hl.linked⟩⟩
      rw [hl.mem_iff, List.mem_append, List.mem_singleton]
      constructor
      · exact fun hy => ⟨.inl hy.1, hy.2⟩
      · rintro ⟨hy | rfl, hxy⟩
        · exact ⟨hy, hxy⟩
        · exact absurd hxy.symm (hfamily x hx')
    · refine ⟨[x], ⟨fun y => ?_, by simp, hlast⟩⟩
      rw [List.mem_singleton, List.mem_append, List.mem_singleton]
      constructor
      · rintro rfl
        exact ⟨.inr rfl, rfl⟩
      · rintro ⟨hy | hy, hxy⟩
        · exact absurd hxy (hfamily y hy)
        · exact hy
  case sameGrant =>
    intro x hx y hy hxy
    rcases hmem x hx with hx' | rfl <;> rcases hmem y hy with hy' | rfl
    · exact h.sameGrant x hx' y hy' hxy
    · exact absurd hxy (hfamily x hx')
    · exact absurd hxy.symm (hfamily y hy')
    · exact ⟨rfl, rfl, rfl, rfl, rfl⟩
  case oneFamily =>
    intro x hx y hy code hxc hyc
    rcases hmem x hx with hx' | rfl <;> rcases hmem y hy with hy' | rfl
    · exact h.oneFamily x hx' y hy' code hxc hyc
    · exact absurd hxc (hcode x hx' code hyc)
    · exact absurd hyc (hcode y hy' code hxc)
    · rfl
  case revoked =>
    intro x hx y hy hxy
    rcases hmem x hx with hx' | rfl <;> rcases hmem y hy with hy' | rfl
    · exact h.revoked x hx' y hy' hxy
    · exact absurd hxy (hfamily x hx')
    · exact absurd hxy.symm (hfamily y hy')
    · rfl
  case lifetime =>
    intro x hx
    rcases hmem x hx with hx' | rfl
    · exact h.lifetime x hx'
    · exact hlifetime

/-- A rotation changes one row. -/
theorem rotate_eq_self {id next : Uuid} {t : RefreshToken} (h : t.id ≠ id) : t.rotate id next = t :=
  if_neg h

/-- A rotation: the last token of a family names its successor, which joins the family. -/
theorem rotate (h : Families rows) {record n : RefreshToken} (hmem : record ∈ rows)
    (hlast : record.rotatedToId = none) (hunrevoked : record.revokedAt = none)
    (hids : ∀ t ∈ rows, t.id = record.id → t = record) (hnew : ∀ t ∈ rows, t.id ≠ n.id)
    (hfamily : n.familyId = record.familyId) (hgrant : SameGrant n record)
    (hnlast : n.rotatedToId = none) (hnunrevoked : n.revokedAt = none)
    (hlifetime : n.expiresAt = n.createdAt + Duration.days 30) :
    Families ((rows ++ [n]).map (·.rotate record.id n.id)) := by
  set f : RefreshToken → RefreshToken := (·.rotate record.id n.id) with hf
  have hfn : f n = n := rotate_eq_self (hnew record hmem).symm
  have hfne (u : RefreshToken) (hu : u ∈ rows) (hne : u ≠ record) : f u = u :=
    rotate_eq_self fun hid => hne (hids u hu hid)
  -- What the rotation leaves alone.
  have hkept (u : RefreshToken) : (f u).id = u.id ∧ (f u).familyId = u.familyId ∧ SameGrant (f u) u ∧
      (f u).revokedAt = u.revokedAt ∧ (f u).expiresAt = u.expiresAt ∧
      (f u).createdAt = u.createdAt := by
    simp only [hf, RefreshToken.rotate]
    split_ifs <;> exact ⟨rfl, rfl, ⟨rfl, rfl, rfl, rfl, rfl⟩, rfl, rfl, rfl⟩
  -- Every new row comes from a row of the same family.
  have hfrom (x : RefreshToken) (hx : x ∈ (rows ++ [n]).map f) :
      ∃ u, (u ∈ rows ∨ u = n) ∧ f u = x := by
    obtain ⟨u, hu, rfl⟩ := List.mem_map.1 hx
    exact ⟨u, by simpa using hu, rfl⟩
  -- An old row that stands for the row in its family.
  have hold (x : RefreshToken) (hx : x ∈ (rows ++ [n]).map f) : ∃ u ∈ rows, u.familyId = x.familyId ∧
      SameGrant x u ∧ (x.revokedAt = none ↔ u.revokedAt = none) := by
    obtain ⟨u, hu | rfl, rfl⟩ := hfrom x hx
    · obtain ⟨-, hfam, hg, hr, -, -⟩ := hkept u
      exact ⟨u, hu, hfam.symm, hg, by rw [hr]⟩
    · rw [hfn]
      exact ⟨record, hmem, hfamily.symm, hgrant, by rw [hunrevoked, hnunrevoked]⟩
  constructor
  case chain =>
    intro x hx
    obtain ⟨u, hu, hux, -, -⟩ := hold x hx
    obtain ⟨l, hl⟩ := h.chain u hu
    by_cases hfam : u.familyId = record.familyId
    · -- The family of the rotated token: its chain grows by the new token.
      have hrecord : record ∈ l := (hl.mem_iff record).2 ⟨hmem, hfam.symm⟩
      obtain ⟨l₀, rfl⟩ := hl.linked.eq_append hrecord hlast
      have hnodup := hl.nodup
      rw [List.map_append, List.map_singleton, List.nodup_append] at hnodup
      have hl₀ : l₀.map f = l₀ := by
        refine (List.map_congr_left fun y hy => ?_).trans (List.map_id l₀)
        refine rotate_eq_self fun hid => ?_
        exact hnodup.2.2 _ (List.mem_map_of_mem hy) _ (List.mem_singleton_self _) hid
      have hlist : ((l₀ ++ [record]) ++ [n]).map f = l₀ ++ [f record, n] := by
        simp [hl₀, hfn]
      refine ⟨((l₀ ++ [record]) ++ [n]).map f, ⟨fun y => ?_, ?_, ?_⟩⟩
      · constructor
        · intro hy
          obtain ⟨v, hv, rfl⟩ := List.mem_map.1 hy
          rw [(hkept v).2.1, ← hux]
          rcases List.mem_append.1 hv with hv | hv
          · obtain ⟨hv, hvf⟩ := (hl.mem_iff v).1 hv
            exact ⟨List.mem_map_of_mem (List.mem_append_left _ hv), hvf⟩
          · refine ⟨List.mem_map_of_mem (List.mem_append_right _ hv), ?_⟩
            rw [List.mem_singleton.1 hv, hfamily, hfam]
        · rintro ⟨hy, hyf⟩
          obtain ⟨v, hv, rfl⟩ := hfrom y hy
          rw [(hkept v).2.1, ← hux] at hyf
          refine List.mem_map_of_mem ?_
          rcases hv with hv | rfl
          · exact List.mem_append_left _ ((hl.mem_iff v).2 ⟨hv, hyf⟩)
          · exact List.mem_append_right _ (List.mem_singleton_self _)
      · rw [List.map_map, show (fun t : RefreshToken => t.id) ∘ f = (·.id) from
          funext fun v => (hkept v).1, List.map_append, List.nodup_append]
        refine ⟨hl.nodup, by simp, ?_⟩
        intro a ha b hb
        obtain ⟨v, hv, rfl⟩ := List.mem_map.1 ha
        obtain rfl : b = n.id := by simpa using hb
        exact hnew v ((hl.mem_iff v).1 hv).1
      · rw [hlist]
        refine hl.linked.extend (hkept record).1 ?_ hnlast
        simp [hf, RefreshToken.rotate]
    · -- Another family: nothing changed.
      have hne (v : RefreshToken) (hv : v.familyId = u.familyId) : v ≠ record := fun hvr =>
        hfam (by rw [← hv, hvr])
      refine ⟨l, ⟨fun y => ?_, hl.nodup, hl.linked⟩⟩
      rw [hl.mem_iff, ← hux]
      constructor
      · rintro ⟨hy, hyf⟩
        refine ⟨?_, hyf⟩
        rw [← hfne y hy (hne y hyf)]
        exact List.mem_map_of_mem (List.mem_append_left _ hy)
      · rintro ⟨hy, hyf⟩
        obtain ⟨v, hv | rfl, rfl⟩ := hfrom y hy
        · rw [(hkept v).2.1] at hyf
          rw [hfne v hv (hne v hyf)]
          exact ⟨hv, hyf⟩
        · rw [hfn, hfamily] at hyf
          exact absurd hyf.symm hfam
  case sameGrant =>
    intro x hx y hy hxy
    obtain ⟨u, hu, hux, hgx, -⟩ := hold x hx
    obtain ⟨v, hv, hvy, hgy, -⟩ := hold y hy
    exact (hgx.trans (h.sameGrant u hu v hv (by rw [hux, hvy, hxy]))).trans hgy.symm
  case oneFamily =>
    intro x hx y hy code hxc hyc
    obtain ⟨u, hu, hux, hgx, -⟩ := hold x hx
    obtain ⟨v, hv, hvy, hgy, -⟩ := hold y hy
    rw [← hux, ← hvy]
    exact h.oneFamily u hu v hv code (hgx.authorizationCodeId ▸ hxc) (hgy.authorizationCodeId ▸ hyc)
  case revoked =>
    intro x hx y hy hxy
    obtain ⟨u, hu, hux, -, hrx⟩ := hold x hx
    obtain ⟨v, hv, hvy, -, hry⟩ := hold y hy
    exact (hrx.trans (h.revoked u hu v hv (by rw [hux, hvy, hxy]))).trans hry.symm
  case lifetime =>
    intro x hx
    obtain ⟨u, hu | rfl, rfl⟩ := hfrom x hx
    · rw [(hkept u).2.2.2.2.1, (hkept u).2.2.2.2.2]
      exact h.lifetime u hu
    · rw [hfn]
      exact hlifetime

end Families

/-! ### What requests do to codes and refresh tokens -/

/-- The changes of the two tables. -/
inductive TokenChange (st : AppState) (d : Draws) (db : Db) : Db → Prop where
  | issued (new : List AuthorizationCode) (db' : Db) (hcodes : db'.codes = db.codes ++ new)
      (htokens : db'.refreshTokens = db.refreshTokens) : TokenChange st d db db'
  | claimed (codeHash : String) (db' : Db)
      (hcodes : db'.codes = db.codes.map (·.claim codeHash d.now))
      (htokens : db'.refreshTokens = db.refreshTokens) : TokenChange st d db db'
  | born (client : OAuthClient) (record : AuthorizationCode) (codeHash : String)
      (hu : Unused db codeHash record) (db' : Db)
      (hcodes : db'.codes = db.codes.map (·.claim codeHash d.now))
      (htokens : db'.refreshTokens = db.refreshTokens ++ [firstToken st d client record])
      (hnew : ∀ t ∈ db.refreshTokens, t.id ≠ d.uuid 2) : TokenChange st d db db'
  | rotated (client : OAuthClient) (record : RefreshToken) (hmem : record ∈ db.refreshTokens)
      (hok : record.checkUsable client.id d.now = .ok ()) (db' : Db)
      (hcodes : db'.codes = db.codes)
      (htokens : db'.refreshTokens = (db.refreshTokens ++ [nextToken st d client record]).map
        (·.rotate record.id (nextToken st d client record).id))
      (hnew : ∀ t ∈ db.refreshTokens, t.id ≠ d.uuid 2) : TokenChange st d db db'
  | revoked (p : RefreshToken → Bool) (hp : ∀ t u, t.familyId = u.familyId → p t = p u) (db' : Db)
      (hcodes : db'.codes = db.codes)
      (htokens : db'.refreshTokens = db.refreshTokens.map (·.revokeIf p d.now)) :
      TokenChange st d db db'
  | registry (db' : Db) (h : Registry d db db') : TokenChange st d db db'

section changes

variable {st : AppState} {d : Draws} {db db' : Db}

theorem result_tokensInsert_ok {t : RefreshToken} {u : Unit}
    (h : db.result (.tokensInsert t) = .ok u) : ∀ t' ∈ db.refreshTokens, t'.id ≠ t.id := by
  intro t' ht' hid
  rw [Db.result, sem, Sql.exec] at h
  split_ifs at h with hclash
  exact hclash (List.any_eq_true.2 ⟨t', ht', by simp [clash, hid]⟩)

theorem checkUsable_ok {t : RefreshToken} {clientId : Uuid} {now : Instant}
    (h : t.checkUsable clientId now = .ok ()) : t.clientId = clientId ∧ t.revokedAt = none ∧
      t.rotatedToId = none ∧ now < t.expiresAt := by
  rw [RefreshToken.checkUsable] at h
  split_ifs at h with h1 h2 h3 h4
  exact ⟨not_not.1 h1, by simpa using h2, by simpa using h3, not_le.1 h4⟩

/-- A change of other tables. -/
theorem TokenChange.same (hcodes : db' .codes = db .codes)
    (htokens : db' .refreshTokens = db .refreshTokens) : TokenChange st d db db' :=
  .issued [] db' (hcodes.trans (List.append_nil _).symm) htokens

theorem TokenChange.refl : TokenChange st d db db := .same rfl rfl

theorem bornFrom_congr (code : Uuid) (t u : RefreshToken) (h : t.familyId = u.familyId) :
    db.bornFrom code t = db.bornFrom code u := by
  rw [Db.bornFrom, Db.bornFrom, h]

theorem Token.CodeEffect.tokenChange {client : OAuthClient} {params : Params} {flaky : Prop}
    {r : Except AppError TokenResponse} (h : CodeEffect st d client params flaky db r db') :
    TokenChange st d db db' := by
  have hframe (codeHash : String) :
      (db.after (.codesClaim codeHash d.now)).refreshTokens = db.refreshTokens :=
    db.after_of_writes (by simp [Stmt.writes])
  cases h with
  | incomplete => exact .refl
  | failed => exact .refl
  | unknown => exact .refl
  | unsigned => exact .refl
  | duplicate => exact .refl
  | replayed hp used =>
      exact .revoked (db.bornFrom used.id) (bornFrom_congr used.id) _
        (db.after_of_writes (by simp [Stmt.writes])) (by simp)
  | rejected => exact .claimed _ _ (Db.after_codesClaim ..) (hframe _)
  | redeemed => exact .claimed _ _ (Db.after_codesClaim ..) (hframe _)
  | redeemedOffline hp record hu hb scope hscope hoffline response hsigned hinsert =>
      have hnew := result_tokensInsert_ok hinsert
      have htokens := Db.after_tokensInsert _ hinsert
      rw [hframe] at hnew htokens
      refine .born client record _ hu _ ?_ htokens hnew
      rw [← Db.after_codesClaim]
      exact Db.after_of_writes _ (by simp [Stmt.writes])

theorem Token.RefreshEffect.tokenChange {client : OAuthClient} {params : Params} {flaky : Prop}
    {r : Except AppError TokenResponse} (h : RefreshEffect st d client params flaky db r db') :
    TokenChange st d db db' := by
  cases h with
  | incomplete => exact .refl
  | failed => exact .refl
  | unknown => exact .refl
  | unusable => exact .refl
  | refused => exact .refl
  | duplicate => exact .refl
  | replayed hraw requested hrequested record =>
      exact .revoked (fun t => t.familyId = record.familyId) (fun t u h => by rw [h]) _
        (db.after_of_writes (by simp [Stmt.writes])) (by simp)
  | refreshed hraw record hf hok requested hrequested granted scope hgranted hscope response hsigned
      hinsert =>
      refine .rotated client record hf.mem hok _ ?_ ?_ (result_tokensInsert_ok hinsert)
      · refine (Db.after_of_writes _ (by simp [Stmt.writes])).trans ?_
        exact Db.after_of_writes _ (by simp [Stmt.writes])
      · rw [Db.after_tokensMarkRotated, Db.after_tokensInsert _ hinsert]

/-- A code is added by the two browser-facing endpoints. -/
theorem codesInsert_tokenChange (hcodes : db' .codes = db .codes)
    (htokens : db' .refreshTokens = db .refreshTokens) {c : AuthorizationCode} {u : Unit}
    (h : db'.result (.codesInsert c) = .ok u) : TokenChange st d db (db'.after (.codesInsert c)) := by
  refine .issued [c] _ ((Db.after_codesInsert _ h).trans (congrArg (· ++ [c]) hcodes)) ?_
  exact (Db.after_of_writes _ (by simp [Stmt.writes])).trans htokens

/-- **Every request makes one of the changes.** -/
theorem Effect.tokenChange {flaky : Prop} {req : Request} {r : Response}
    (h : Effect st d flaky db req r db') : TokenChange st d db db' := by
  have hgrant (t : Table) (ht : t ≠ .consents) (userId clientId : Uuid) (scopes : ScopeSet) :
      db.after (db.grantStatement userId clientId d scopes) t = db t :=
    db.after_of_writes (by simp [Db.grantStatement, Stmt.writes, ht])
  cases h with
  | authorize headers pairs r db' h =>
      cases h with
      | issued params hp session user hs v hv hfresh granted hgranted hscope hinsert =>
          exact codesInsert_tokenChange rfl rfl hinsert
      | _ => exact .refl
  | consent headers pairs r db' h =>
      cases h with
      | grantedOnly => exact .same (hgrant _ (by decide) _ _ _) (hgrant _ (by decide) _ _ _)
      | issued params hp hcsrf happroved session user hs v hv hg hinsert =>
          exact codesInsert_tokenChange (hgrant _ (by decide) _ _ _) (hgrant _ (by decide) _ _ _) hinsert
      | _ => exact .refl
  | token headers pairs r db' h =>
      cases h with
      | code params client hl hg r db' h => exact h.tokenChange
      | refresh params client hl hg r db' h => exact h.tokenChange
      | _ => exact .refl
  | revoke headers pairs r db' h =>
      cases h with
      | revoked params client hl token htoken record =>
          exact .revoked (fun t => t.familyId = record.familyId) (fun t u h => by rw [h]) _
            (db.after_of_writes (by simp [Stmt.writes])) (by simp)
      | _ => exact .refl
  | notAForm => exact .refl
  | account req r db' h => exact .same (h.frame (by decide) (by decide)) (h.frame (by decide) (by decide))
  | registry req hreq r db' h => exact .registry db' h

end changes

/-! ### Runs -/

/-- The invariant of runs: the families, where their rows come from, and that their ids were
drawn by earlier requests. -/
structure FamilyInv (es : List Event) (db : Db) : Prop where
  families : Families db.refreshTokens
  origin : ∀ t ∈ db.refreshTokens, ∀ code, t.authorizationCodeId = some code →
    ∃ c ∈ db.codes, c.id = code ∧ c.usedAt ≠ none
  id_drawn : ∀ t ∈ db.refreshTokens, ∃ e ∈ es, ∃ i, e.draws.uuid i = t.id
  family_drawn : ∀ t ∈ db.refreshTokens, ∃ e ∈ es, ∃ i, e.draws.uuid i = t.familyId

/-- What the deletion of a client does to the two tables. -/
theorem deleteClient_rows {id : Uuid} {db db' : Db} (h : deleteClient id db = some db') :
    db'.codes = db.codes.filter (fun c => c.clientId ≠ id) ∧
      db'.refreshTokens = (db.refreshTokens.filter fun t => t.clientId ≠ id).map fun t =>
        if (db.codes.filter fun c => c.clientId = id).any fun c =>
          t.authorizationCodeId = some c.id then { t with authorizationCodeId := none } else t := by
  rw [deleteClient] at h
  split_ifs at h
  obtain rfl := Option.some.inj h
  exact ⟨rfl, rfl⟩

/-- A step of the registries leaves the two tables alone, or deletes a client. -/
theorem Stmt.Registers.rows {d : Draws} {q : Stmt} (hq : q.Registers d) (db : Db) :
    ((db.after q).codes = db.codes ∧ (db.after q).refreshTokens = db.refreshTokens) ∨
      ∃ id, deleteClient id db = some (db.after q) := by
  have hkept (h : .codes ∉ q.writes ∧ .refreshTokens ∉ q.writes) :
      (db.after q).codes = db.codes ∧ (db.after q).refreshTokens = db.refreshTokens :=
    ⟨db.after_of_writes h.1, db.after_of_writes h.2⟩
  cases hq with
  | read q h => exact .inl (hkept (by simp [h]))
  | clientsDelete id =>
      rcases db.after_clientsDelete id with h | h
      · rw [h]
        exact .inl ⟨rfl, rfl⟩
      · exact .inr ⟨id, h⟩
  | _ => exact .inl (hkept (by simp [Stmt.writes]))

section runs

variable {st : AppState} {es : List Event} {d : Draws} {db db' : Db}

namespace FamilyInv

theorem mono (h : FamilyInv es db) {es' : List Event} (hes : ∀ e ∈ es, e ∈ es') : FamilyInv es' db where
  families := h.families
  origin := h.origin
  id_drawn t ht := by
    obtain ⟨e, he, i, hi⟩ := h.id_drawn t ht
    exact ⟨e, hes e he, i, hi⟩
  family_drawn t ht := by
    obtain ⟨e, he, i, hi⟩ := h.family_drawn t ht
    exact ⟨e, hes e he, i, hi⟩

/-- A change of the codes under which used codes stay. -/
theorem codes (h : FamilyInv es db)
    (hcodes : ∀ c ∈ db.codes, c.usedAt ≠ none → ∃ c' ∈ db'.codes, c'.id = c.id ∧ c'.usedAt ≠ none)
    (htokens : db'.refreshTokens = db.refreshTokens) : FamilyInv es db' := by
  constructor
  case origin =>
    intro t ht code hcode
    rw [htokens] at ht
    obtain ⟨c, hc, rfl, hused⟩ := h.origin t ht code hcode
    exact hcodes c hc hused
  all_goals
    rw [htokens]
  · exact h.families
  · exact h.id_drawn
  · exact h.family_drawn

theorem delete (h : FamilyInv es db) {id : Uuid} (hd : deleteClient id db = some db') :
    FamilyInv es db' := by
  obtain ⟨hcodes, htokens⟩ := deleteClient_rows hd
  set f : RefreshToken → RefreshToken := fun t =>
    if (db.codes.filter fun c => c.clientId = id).any fun c => t.authorizationCodeId = some c.id then
      { t with authorizationCodeId := none } else t with hf
  have hrelabel : Relabels db.refreshTokens f := by
    constructor
    case sameGrant =>
      intro t u htu
      simp only [hf, htu.authorizationCodeId]
      split_ifs
      · exact ⟨htu.clientId, htu.userId, htu.scope, htu.authTime, rfl⟩
      · exact htu
    case code =>
      intro t code hcode
      simp only [hf] at hcode
      split_ifs at hcode
      exact hcode
    case revoked =>
      intro t ht u hu htu
      have hrevoked := h.families.revoked t ht u hu htu
      simp only [hf]
      split_ifs <;> exact hrevoked
    all_goals
      intro t
      simp only [hf]
      split_ifs <;> rfl
  have hfrom (x : RefreshToken) (hx : x ∈ db'.refreshTokens) :
      ∃ t ∈ db.refreshTokens, t.clientId ≠ id ∧ f t = x := by
    rw [htokens] at hx
    obtain ⟨t, ht, rfl⟩ := List.mem_map.1 hx
    obtain ⟨ht, hclient⟩ := List.mem_filter.1 ht
    exact ⟨t, ht, by simpa using hclient, rfl⟩
  constructor
  case families =>
    rw [htokens]
    exact h.families.relabel _ (fun t ht u hu htu => by
      rw [(h.families.sameGrant t ht u hu htu).clientId]) hrelabel
  case origin =>
    intro x hx code hcode
    obtain ⟨t, ht, -, rfl⟩ := hfrom x hx
    obtain ⟨c, hc, hid, hused⟩ := h.origin t ht code (hrelabel.code t code hcode)
    refine ⟨c, ?_, hid, hused⟩
    rw [hcodes, List.mem_filter]
    refine ⟨hc, ?_⟩
    by_contra hclient
    simp only [hf] at hcode
    rw [if_pos (List.any_eq_true.2 ⟨c, List.mem_filter.2 ⟨hc, by simpa using hclient⟩, ?_⟩)] at hcode
    · cases hcode
    · split_ifs at hcode
      rw [hcode, hid]
      simp
  case id_drawn =>
    intro x hx
    obtain ⟨t, ht, -, rfl⟩ := hfrom x hx
    rw [hrelabel.id]
    exact h.id_drawn t ht
  case family_drawn =>
    intro x hx
    obtain ⟨t, ht, -, rfl⟩ := hfrom x hx
    rw [hrelabel.familyId]
    exact h.family_drawn t ht

theorem registry (h : FamilyInv es db) (hr : Registry d db db') : FamilyInv es db' := by
  induction hr with
  | refl => exact h
  | tail _ hstep ih =>
      obtain ⟨q, hq, rfl⟩ := hstep
      rcases hq.rows _ with ⟨hcodes, htokens⟩ | ⟨id, hd⟩
      · refine ih.codes (fun c hc hused => ⟨c, ?_, rfl, hused⟩) htokens
        rw [hcodes]
        exact hc
      · exact ih.delete hd

/-- Used codes stay when one is claimed. -/
theorem mem_of_claim {codes codes' : List AuthorizationCode} {codeHash : String} {now : Instant}
    (h : codes' = codes.map (·.claim codeHash now)) {c : AuthorizationCode} (hc : c ∈ codes)
    (hused : c.usedAt ≠ none) : c ∈ codes' := by
  rw [h]
  refine List.mem_map.2 ⟨c, hc, ?_⟩
  rw [AuthorizationCode.claim, if_neg fun h => hused h.2]

/-- **Every request keeps the invariant.** -/
theorem step (h : FamilyInv es db) (hu : db.Unique) {e : Event} (hfresh : Fresh es e.draws)
    (hchange : TokenChange st e.draws db db') : FamilyInv (e :: es) db' := by
  have hes : ∀ e' ∈ es, e' ∈ e :: es := fun e' he' => List.mem_cons_of_mem e he'
  cases hchange with
  | issued new db' hcodes htokens =>
      refine (h.codes (fun c hc hused => ⟨c, ?_, rfl, hused⟩) htokens).mono hes
      rw [hcodes]
      exact List.mem_append_left _ hc
  | claimed codeHash db' hcodes htokens =>
      exact (h.codes (fun c hc hused => ⟨c, mem_of_claim hcodes hc hused, rfl, hused⟩) htokens).mono
        hes
  | registry db' hr => exact (h.registry hr).mono hes
  | revoked p hp db' hcodes htokens =>
      have hrow (t : RefreshToken) : (t.revokeIf p e.draws.now).id = t.id ∧
          (t.revokeIf p e.draws.now).familyId = t.familyId ∧
          (t.revokeIf p e.draws.now).authorizationCodeId = t.authorizationCodeId := by
        rw [RefreshToken.revokeIf]
        split_ifs <;> exact ⟨rfl, rfl, rfl⟩
      refine mono (⟨?_, ?_, ?_, ?_⟩ : FamilyInv es db') hes <;> rw [htokens]
      · exact h.families.revoke (fun t _ u _ => hp t u) e.draws.now
      all_goals
        intro x hx
        obtain ⟨t, ht, rfl⟩ := List.mem_map.1 hx
      · rw [(hrow t).2.2, hcodes]
        exact h.origin t ht
      · rw [(hrow t).1]
        exact h.id_drawn t ht
      · rw [(hrow t).2.1]
        exact h.family_drawn t ht
  | born client record codeHash hrecord db' hcodes htokens hnew =>
      have hused : ∃ c ∈ db'.codes, c.id = record.id ∧ c.usedAt ≠ none := by
        refine ⟨record.claim codeHash e.draws.now, ?_, ?_, ?_⟩
        · rw [hcodes]
          exact List.mem_map_of_mem hrecord.mem
        · simp [AuthorizationCode.claim, hrecord.hash, hrecord.unused]
        · simp [AuthorizationCode.claim, hrecord.hash, hrecord.unused]
      have hmem (x : RefreshToken) (hx : x ∈ db'.refreshTokens) :
          x ∈ db.refreshTokens ∨ x = firstToken st e.draws client record := by
        rw [htokens] at hx
        simpa using hx
      constructor
      case families =>
        rw [htokens]
        refine h.families.born (fun u hu' hfamily => ?_) (fun u hu' code hcode hcode' => ?_) rfl rfl
        · obtain ⟨e', he', i, hi⟩ := h.family_drawn u hu'
          exact hfresh.uuid_new e' he' i 1 (hi.trans hfamily)
        · obtain ⟨c, hc, hid, hused⟩ := h.origin u hu' code hcode'
          have hcr : c = record := hu.eq (t := .codes) hc hrecord.mem
            (by simp [clash, hid, ← Option.some.inj hcode])
          exact hused (hcr ▸ hrecord.unused)
      case origin =>
        intro x hx code hcode
        rcases hmem x hx with hx' | rfl
        · obtain ⟨c, hc, hid, hcused⟩ := h.origin x hx' code hcode
          exact ⟨c, mem_of_claim hcodes hc hcused, hid, hcused⟩
        · obtain rfl : record.id = code := Option.some.inj hcode
          exact hused
      case id_drawn =>
        intro x hx
        rcases hmem x hx with hx' | rfl
        · exact (h.mono hes).id_drawn x hx'
        · exact ⟨e, List.mem_cons_self, 2, rfl⟩
      case family_drawn =>
        intro x hx
        rcases hmem x hx with hx' | rfl
        · exact (h.mono hes).family_drawn x hx'
        · exact ⟨e, List.mem_cons_self, 1, rfl⟩
  | rotated client record hrecord hok db' hcodes htokens hnew =>
      obtain ⟨hclient, hunrevoked, hlast, -⟩ := checkUsable_ok hok
      have hrow (id next : Uuid) (t : RefreshToken) : (t.rotate id next).id = t.id ∧
          (t.rotate id next).familyId = t.familyId ∧
          (t.rotate id next).authorizationCodeId = t.authorizationCodeId := by
        rw [RefreshToken.rotate]
        split_ifs <;> exact ⟨rfl, rfl, rfl⟩
      have hfrom (x : RefreshToken) (hx : x ∈ db'.refreshTokens) : ∃ t,
          (t ∈ db.refreshTokens ∨ t = nextToken st e.draws client record) ∧ x.id = t.id ∧
            x.familyId = t.familyId ∧ x.authorizationCodeId = t.authorizationCodeId := by
        rw [htokens] at hx
        obtain ⟨t, ht, rfl⟩ := List.mem_map.1 hx
        exact ⟨t, by simpa using ht, hrow _ _ t⟩
      constructor
      case families =>
        rw [htokens]
        refine h.families.rotate hrecord hlast hunrevoked (fun t ht hid => ?_) hnew rfl
          ⟨hclient.symm, rfl, rfl, rfl, rfl⟩ rfl rfl rfl
        exact hu.eq (t := .refreshTokens) ht hrecord (by simp [clash, hid])
      case origin =>
        intro x hx code hcode
        rw [hcodes]
        obtain ⟨t, ht | rfl, -, -, hcode'⟩ := hfrom x hx
        · exact h.origin t ht code (hcode' ▸ hcode)
        · exact h.origin record hrecord code (hcode' ▸ hcode)
      case id_drawn =>
        intro x hx
        obtain ⟨t, ht | rfl, hid, -, -⟩ := hfrom x hx
        · rw [hid]
          exact (h.mono hes).id_drawn t ht
        · exact ⟨e, List.mem_cons_self, 2, hid.symm⟩
      case family_drawn =>
        intro x hx
        obtain ⟨t, ht | rfl, -, hfamily, -⟩ := hfrom x hx
        · rw [hfamily]
          exact (h.mono hes).family_drawn t ht
        · rw [hfamily]
          exact (h.mono hes).family_drawn record hrecord

end FamilyInv

/-- **The invariant holds in every run.** -/
theorem Run.familyInv (run : Run st es db) : FamilyInv es db := by
  induction run with
  | init =>
      exact
        { families := by constructor <;> exact fun _ h => absurd h List.not_mem_nil
          origin := fun _ h => absurd h List.not_mem_nil
          id_drawn := fun _ h => absurd h List.not_mem_nil
          family_drawn := fun _ h => absurd h List.not_mem_nil }
  | step run req d faults fresh ih =>
      exact ih.step run.unique fresh (serve_effect st d faults req _).tokenChange

end runs

/-! ### Revoked families -/

/-- The row is one of `rows`, perhaps changed, and as revoked as before. -/
def Inherited (rows : List RefreshToken) (t' : RefreshToken) : Prop :=
  ∃ t ∈ rows, t.id = t'.id ∧ t.familyId = t'.familyId ∧
    ∀ time, t.revokedAt = some time → t'.revokedAt = some time

theorem Inherited.refl {rows : List RefreshToken} {t : RefreshToken} (ht : t ∈ rows) :
    Inherited rows t := ⟨t, ht, rfl, rfl, fun _ h => h⟩

theorem Inherited.trans {rows rows' : List RefreshToken} {t : RefreshToken}
    (h : ∀ t ∈ rows', Inherited rows t) (ht : Inherited rows' t) : Inherited rows t := by
  obtain ⟨u, hu, hid, hfamily, hrevoked⟩ := ht
  obtain ⟨v, hv, hid', hfamily', hrevoked'⟩ := h u hu
  exact ⟨v, hv, hid'.trans hid, hfamily'.trans hfamily, fun time h => hrevoked time (hrevoked' time h)⟩

section revoked

variable {st : AppState} {es : List Event} {d : Draws} {db db' : Db} {familyId : Uuid}

theorem Registry.inherited (h : Registry d db db') : ∀ t ∈ db'.refreshTokens,
    Inherited db.refreshTokens t := by
  induction h with
  | refl => exact fun t ht => .refl ht
  | tail _ hstep ih =>
      obtain ⟨q, hq, rfl⟩ := hstep
      intro t ht
      refine Inherited.trans ih ?_
      rcases hq.rows _ with ⟨-, htokens⟩ | ⟨id, hd⟩
      · rw [htokens] at ht
        exact .refl ht
      · rw [(deleteClient_rows hd).2] at ht
        obtain ⟨u, hu, rfl⟩ := List.mem_map.1 ht
        refine ⟨u, (List.mem_filter.1 hu).1, ?_⟩
        split_ifs <;> exact ⟨rfl, rfl, fun _ h => h⟩

/-- A row is inherited, or it is the new one of the request; the new one starts a new family,
or joins one that has an unrevoked row. -/
theorem TokenChange.inherited (h : TokenChange st d db db') : ∀ t ∈ db'.refreshTokens,
    Inherited db.refreshTokens t ∨ t.id = d.uuid 2 ∧ (t.familyId = d.uuid 1 ∨
      ∃ u ∈ db.refreshTokens, u.familyId = t.familyId ∧ u.revokedAt = none) := by
  intro t ht
  cases h with
  | issued new db' hcodes htokens =>
      rw [htokens] at ht
      exact .inl (.refl ht)
  | claimed codeHash db' hcodes htokens =>
      rw [htokens] at ht
      exact .inl (.refl ht)
  | born client record codeHash hu db' hcodes htokens hnew =>
      rw [htokens] at ht
      rcases List.mem_append.1 ht with ht | ht
      · exact .inl (.refl ht)
      · rw [List.mem_singleton.1 ht]
        exact .inr ⟨rfl, .inl rfl⟩
  | rotated client record hmem hok db' hcodes htokens hnew =>
      rw [htokens] at ht
      obtain ⟨u, hu, rfl⟩ := List.mem_map.1 ht
      have hrow (id next : Uuid) : u.id = (u.rotate id next).id ∧
          u.familyId = (u.rotate id next).familyId ∧
          (u.rotate id next).revokedAt = u.revokedAt := by
        rw [RefreshToken.rotate]
        split_ifs <;> exact ⟨rfl, rfl, rfl⟩
      obtain ⟨hid, hfamily, hrevoked⟩ := hrow record.id (nextToken st d client record).id
      rcases List.mem_append.1 hu with hu | hu
      · exact .inl ⟨u, hu, hid, hfamily, fun _ h => hrevoked.trans h⟩
      · rw [← hid, ← hfamily, List.mem_singleton.1 hu]
        exact .inr ⟨rfl, .inr ⟨record, hmem, rfl, (checkUsable_ok hok).2.1⟩⟩
  | revoked p hp db' hcodes htokens =>
      rw [htokens] at ht
      obtain ⟨u, hu, rfl⟩ := List.mem_map.1 ht
      refine .inl ⟨u, hu, ?_⟩
      rw [RefreshToken.revokeIf]
      split_ifs with hrevoke
      · exact ⟨rfl, rfl, fun _ h => absurd (hrevoke.2.symm.trans h) (by simp)⟩
      · exact ⟨rfl, rfl, fun _ h => h⟩
  | registry db' hr => exact .inl (hr.inherited t ht)

/-- A revoked family gets no usable row. -/
theorem TokenChange.dead (h : TokenChange st d db db') (hfamily : familyId ≠ d.uuid 1)
    (hdead : Dead familyId db.refreshTokens) : Dead familyId db'.refreshTokens := by
  intro t ht htf
  rcases h.inherited t ht with ⟨u, hu, -, huf, hrevoked⟩ | ⟨-, hnew | ⟨u, hu, huf, hunrevoked⟩⟩
  · obtain ⟨time, htime⟩ := Option.ne_none_iff_exists'.1 (hdead u hu (huf.trans htf))
    rw [hrevoked time htime]
    simp
  · exact absurd (htf.symm.trans hnew) hfamily
  · exact absurd hunrevoked (hdead u hu (huf.trans htf))

/-- The rows that a run once had have drawn ids. -/
theorem Run.drawn_before (run : Run st es db) : ∀ e ∈ es, FamilyInv es e.before := by
  induction run with
  | init => exact fun _ h => nomatch h
  | @step es db run req d faults fresh ih =>
      intro e he
      refine (?_ : FamilyInv es e.before).mono fun e' he' => List.mem_cons_of_mem _ he'
      rcases List.mem_cons.1 he with rfl | he
      · exact run.familyInv
      · exact ih e he

/-- **A revocation is never taken back or overwritten.** -/
theorem Run.revocationKept (run : Run st es db) : ∀ e ∈ es,
    RevocationKept e.before.refreshTokens db.refreshTokens := by
  induction run with
  | init => exact fun _ h => nomatch h
  | @step es db run req d faults fresh ih =>
      intro e he t ht t' ht' hid time htime
      have hkept : RevocationKept e.before.refreshTokens db.refreshTokens ∧
          ∃ e' ∈ es, ∃ i, e'.draws.uuid i = t.id := by
        rcases List.mem_cons.1 he with rfl | he
        · refine ⟨fun t ht t' ht' hid time htime => ?_, run.familyInv.id_drawn t ht⟩
          rwa [run.unique.eq (t := .refreshTokens) ht' ht (by simp [clash, hid])]
        · exact ⟨ih e he, (run.drawn_before e he).id_drawn t ht⟩
      obtain ⟨hkept, e', he', i, hi⟩ := hkept
      rcases (serve_effect st d faults req db).tokenChange.inherited t' ht' with
        ⟨u, hu, huid, -, hrevoked⟩ | ⟨hnew, -⟩
      · exact hrevoked time (hkept t ht u hu (huid.trans hid) time htime)
      · exact absurd (hi.trans (hid.symm.trans hnew)) (fresh.uuid_new e' he' i 2)

end revoked

/-! ### Replays -/

/-- A served request in which a client presents one of its rotated tokens, or any client a used
code, from which the family was born. -/
inductive Replays (st : AppState) (e : Event) (familyId : Uuid) : Prop where
  | token (headers : HeaderMap) (pairs : List (String × String))
      (hreq : e.req = .token headers (some pairs)) (hfaults : true ∉ e.faults) (params : Params)
      (client : OAuthClient) (hl : Login st e.before (authorizationHeader headers) pairs params client)
      (hg : params.get "grant_type" = some "refresh_token") (token : String)
      (htoken : params.get "refresh_token" = some token)
      (hscope : ∀ raw, params.get "scope" = some raw → ∃ scope, ScopeSet.parse raw = .ok scope)
      (record : RefreshToken) (hmem : record ∈ e.before.refreshTokens)
      (hhash : record.tokenHash = st.hashToken token) (howner : record.clientId = client.id)
      (hrotated : record.rotatedToId ≠ none) (hfamily : record.familyId = familyId)
  | code (headers : HeaderMap) (pairs : List (String × String))
      (hreq : e.req = .token headers (some pairs)) (hfaults : true ∉ e.faults) (params : Params)
      (client : OAuthClient) (hl : Login st e.before (authorizationHeader headers) pairs params client)
      (hg : params.get "grant_type" = some "authorization_code") (code uri verifier : String)
      (hp : Presents params code uri verifier) (record : AuthorizationCode)
      (hmem : record ∈ e.before.codes) (hhash : record.codeHash = st.hashToken code)
      (hused : record.usedAt ≠ none) (t : RefreshToken) (ht : t ∈ e.before.refreshTokens)
      (hborn : t.authorizationCodeId = some record.id) (hfamily : t.familyId = familyId)

section replays

variable {st : AppState} {d : Draws} {client : OAuthClient} {params : Params} {flaky : Prop}
  {db db' : Db} {familyId : Uuid} {r : Except AppError TokenResponse}

theorem Token.CodeEffect.dead_of_replay (h : CodeEffect st d client params flaky db r db')
    (hu : db.Unique) (hflaky : ¬flaky) {code uri verifier : String}
    (hp : Presents params code uri verifier) {record : AuthorizationCode} (hmem : record ∈ db.codes)
    (hhash : record.codeHash = st.hashToken code) (hused : record.usedAt ≠ none) {t : RefreshToken}
    (ht : t ∈ db.refreshTokens) (hborn : t.authorizationCodeId = some record.id) :
    Dead t.familyId db'.refreshTokens := by
  have hclaimed {code' uri' verifier' : String} (hp' : Presents params code' uri' verifier')
      {record' : AuthorizationCode} (hu' : Unused db (st.hashToken code') record') : False := by
    cases hp.code.symm.trans hp'.code
    obtain rfl : record' = record :=
      hu.eq (t := .codes) hu'.mem hmem (by simp [clash, hu'.hash, hhash])
    exact hused hu'.unused
  cases h with
  | incomplete e h => exact absurd hp (h code uri verifier)
  | failed e h => exact absurd h hflaky
  | unknown hp' h =>
      cases hp.code.symm.trans hp'.code
      exact absurd hhash (h record hmem)
  | rejected hp' record' hu' => exact (hclaimed hp' hu').elim
  | unsigned hp' record' hu' => exact (hclaimed hp' hu').elim
  | duplicate hp' record' hu' => exact (hclaimed hp' hu').elim
  | redeemed hp' record' hu' => exact (hclaimed hp' hu').elim
  | redeemedOffline hp' record' hu' => exact (hclaimed hp' hu').elim
  | replayed hp' used hmem' hhash' h =>
      cases hp.code.symm.trans hp'.code
      obtain rfl : used = record := hu.eq (t := .codes) hmem' hmem (by simp [clash, hhash', hhash])
      intro x hx hxf
      rw [Db.after_tokensRevokeByAuthorizationCode] at hx
      obtain ⟨y, hy, rfl⟩ := List.mem_map.1 hx
      have hyf : t.familyId = y.familyId := by
        rw [← hxf, RefreshToken.revokeIf]
        split_ifs <;> rfl
      have hby : db.bornFrom used.id y = true :=
        List.any_eq_true.2 ⟨t, ht, by simp [hborn, hyf]⟩
      rw [RefreshToken.revokeIf]
      split_ifs with hrevoke
      · simp
      · exact fun hnone => hrevoke ⟨hby, hnone⟩

theorem Token.RefreshEffect.dead_of_replay (h : RefreshEffect st d client params flaky db r db')
    (hu : db.Unique) (hfam : Families db.refreshTokens) (hflaky : ¬flaky) {token : String}
    (htoken : params.get "refresh_token" = some token)
    (hscope : ∀ raw, params.get "scope" = some raw → ∃ scope, ScopeSet.parse raw = .ok scope)
    {record : RefreshToken} (hmem : record ∈ db.refreshTokens)
    (hhash : record.tokenHash = st.hashToken token) (howner : record.clientId = client.id)
    (hrotated : record.rotatedToId ≠ none) : Dead record.familyId db'.refreshTokens := by
  have hfound {token' : String} (htoken' : params.get "refresh_token" = some token')
      {record' : RefreshToken} (hf : Found db (st.hashToken token') record') : record' = record := by
    cases htoken.symm.trans htoken'
    exact hu.eq (t := .refreshTokens) hf.mem hmem (by simp [clash, hf.hash, hhash])
  cases h with
  | incomplete e h =>
      obtain ⟨requested, hrequested⟩ := requestedScope_ok_iff.2 hscope
      exact absurd hrequested (h token requested htoken)
  | failed e h => exact absurd h hflaky
  | unknown htoken' h =>
      cases htoken.symm.trans htoken'
      exact absurd hhash (h record hmem)
  | unusable htoken' record' hf u hne hcheck =>
      obtain rfl := hfound htoken' hf
      -- Not even as a rotated token: the family is revoked already.
      have hrevoked : record'.revokedAt ≠ none := fun hnone => hne (Except.error.inj
        (hcheck.symm.trans (RefreshToken.checkUsable_alreadyRotated.2 ⟨howner, hnone, hrotated⟩)))
      exact fun x hx hxf hnone => hrevoked ((hfam.revoked x hx record' hmem hxf).1 hnone)
  | replayed htoken' requested hrequested record' hf h =>
      obtain rfl := hfound htoken' hf
      intro x hx hxf
      rw [Db.after_tokensRevokeFamily] at hx
      obtain ⟨y, hy, rfl⟩ := List.mem_map.1 hx
      have hyf : y.familyId = record'.familyId := by
        rw [← hxf, RefreshToken.revokeIf]
        split_ifs <;> rfl
      rw [RefreshToken.revokeIf]
      split_ifs with hrevoke
      · simp
      · exact fun hnone => hrevoke ⟨by simp [hyf], hnone⟩
  | refused htoken' record' hf hok =>
      obtain rfl := hfound htoken' hf
      exact absurd (checkUsable_ok hok).2.2.1 hrotated
  | duplicate htoken' record' hf hok =>
      obtain rfl := hfound htoken' hf
      exact absurd (checkUsable_ok hok).2.2.1 hrotated
  | refreshed htoken' record' hf hok =>
      obtain rfl := hfound htoken' hf
      exact absurd (checkUsable_ok hok).2.2.1 hrotated

theorem Replays.dead {e : Event} (h : Replays st e familyId) (hu : e.before.Unique)
    (hfam : Families e.before.refreshTokens) :
    Dead familyId ((serve st e.draws e.faults e.req e.before).2 .refreshTokens) := by
  cases h with
  | token headers pairs hreq hfaults params client hl hg token htoken hscope record hmem hhash howner
      hrotated hfamily =>
      subst hfamily
      rw [hreq]
      obtain ⟨r, -, heffect⟩ := serve_token st e.draws headers pairs e.faults e.before
      generalize (serve st e.draws e.faults (.token headers (some pairs)) e.before).2 = db' at heffect ⊢
      cases heffect with
      | failed e h => exact absurd h hfaults
      | refused e h => exact absurd (GrantType.parse_eq_ok.2 hg) (h params client hl .refreshToken)
      | code params' client' hl' hg' =>
          obtain ⟨rfl, rfl⟩ := hl.eq hl'
          exact absurd (hg.symm.trans (GrantType.parse_eq_ok.1 hg')) (by simp)
      | refresh params' client' hl' hg' r db' h =>
          obtain ⟨rfl, rfl⟩ := hl.eq hl'
          exact h.dead_of_replay hu hfam hfaults htoken hscope hmem hhash howner hrotated
  | code headers pairs hreq hfaults params client hl hg code uri verifier hp record hmem hhash hused t
      ht hborn hfamily =>
      subst hfamily
      rw [hreq]
      obtain ⟨r, -, heffect⟩ := serve_token st e.draws headers pairs e.faults e.before
      generalize (serve st e.draws e.faults (.token headers (some pairs)) e.before).2 = db' at heffect ⊢
      cases heffect with
      | failed e h => exact absurd h hfaults
      | refused e h =>
          exact absurd (GrantType.parse_eq_ok.2 hg) (h params client hl .authorizationCode)
      | code params' client' hl' hg' r db' h =>
          obtain ⟨rfl, rfl⟩ := hl.eq hl'
          exact h.dead_of_replay hu hfaults hp hmem hhash hused ht hborn
      | refresh params' client' hl' hg' =>
          obtain ⟨rfl, rfl⟩ := hl.eq hl'
          exact absurd (hg.symm.trans (GrantType.parse_eq_ok.1 hg')) (by simp)

theorem Replays.row {e : Event} (h : Replays st e familyId) :
    ∃ t ∈ e.before.refreshTokens, t.familyId = familyId := by
  cases h with
  | token headers pairs hreq hfaults params client hl hg token htoken hscope record hmem hhash howner
      hrotated hfamily => exact ⟨record, hmem, hfamily⟩
  | code headers pairs hreq hfaults params client hl hg code uri verifier hp record hmem hhash hused t
      ht hborn hfamily => exact ⟨t, ht, hfamily⟩

/-- **A replayed family stays dead.** -/
theorem Run.dead_of_replay {es : List Event} (run : Run st es db) : ∀ e ∈ es, ∀ familyId,
    Replays st e familyId → Dead familyId db.refreshTokens := by
  induction run with
  | init => exact fun _ h => nomatch h
  | @step es db run req d faults fresh ih =>
      intro e he familyId hreplay
      rcases List.mem_cons.1 he with rfl | he
      · exact hreplay.dead run.unique run.familyInv.families
      · obtain ⟨t, ht, rfl⟩ := hreplay.row
        obtain ⟨e', he', i, hi⟩ := (run.drawn_before e he).family_drawn t ht
        refine (serve_effect st d faults req db).tokenChange.dead (fun h => ?_)
          (ih e he _ hreplay)
        exact fresh.uuid_new e' he' i 1 (hi.trans h)

end replays

/-! ### The guarantee -/

/-- Some client can exchange the token at some time. -/
def RefreshToken.Usable (t : RefreshToken) : Prop :=
  ∃ clientId now, t.checkUsable clientId now = .ok ()

/-- At most one token of a family is usable. -/
theorem Families.usable_eq {rows : List RefreshToken} (h : Families rows) {t u : RefreshToken}
    (ht : t ∈ rows) (hu : u ∈ rows) (hfamily : t.familyId = u.familyId) (ht' : t.Usable)
    (hu' : u.Usable) : t = u := by
  obtain ⟨_, _, hokt⟩ := ht'
  obtain ⟨_, _, hoku⟩ := hu'
  obtain ⟨l, hl⟩ := h.chain t ht
  have htl : t ∈ l := (hl.mem_iff t).2 ⟨ht, rfl⟩
  have hul : u ∈ l := (hl.mem_iff u).2 ⟨hu, hfamily.symm⟩
  exact (hl.linked.existsUnique_last (List.ne_nil_of_mem htl)).unique
    ⟨htl, (checkUsable_ok hokt).2.2.1⟩ ⟨hul, (checkUsable_ok hoku).2.2.1⟩

/-- Every family has exactly one token that was not rotated. -/
theorem Families.existsUnique_head {rows : List RefreshToken} (h : Families rows) {t : RefreshToken}
    (ht : t ∈ rows) : ∃! u, u ∈ rows ∧ u.familyId = t.familyId ∧ u.rotatedToId = none := by
  obtain ⟨l, hl⟩ := h.chain t ht
  have htl : t ∈ l := (hl.mem_iff t).2 ⟨ht, rfl⟩
  have hhead := hl.linked.existsUnique_last (List.ne_nil_of_mem htl)
  simpa only [hl.mem_iff, and_assoc] using hhead

/-- **Refresh-token families.**  In every reachable state the rows of a family share their grant
and form one chain with one head, are revoked together or not at all, and expire after thirty
days; a revocation is final; a family has at most one usable token, and none after a replay. -/
theorem refresh_families {st : AppState} {es : List Event} {db : Db} (run : Run st es db) :
    Families db.refreshTokens ∧
      (∀ t ∈ db.refreshTokens, ∃! u, u ∈ db.refreshTokens ∧ u.familyId = t.familyId ∧
        u.rotatedToId = none) ∧
      (∀ e ∈ es, RevocationKept e.before.refreshTokens db.refreshTokens) ∧
      (∀ t ∈ db.refreshTokens, ∀ u ∈ db.refreshTokens, t.familyId = u.familyId → t.Usable →
        u.Usable → t = u) ∧
      ∀ e ∈ es, ∀ familyId, Replays st e familyId → ∀ t ∈ db.refreshTokens,
        t.familyId = familyId → ¬t.Usable := by
  have hfamilies := run.familyInv.families
  refine ⟨hfamilies, fun t ht => hfamilies.existsUnique_head ht, run.revocationKept,
    fun t ht u hu => hfamilies.usable_eq ht hu, ?_⟩
  rintro e he familyId hreplay t ht hfamily ⟨_, _, hok⟩
  exact run.dead_of_replay e he familyId hreplay t ht hfamily (checkUsable_ok hok).2.1

theorem refresh_families_replayed :
    Families Sample.replayed.refreshTokens ∧
      (∀ t ∈ Sample.replayed.refreshTokens, ∃! u, u ∈ Sample.replayed.refreshTokens ∧
        u.familyId = t.familyId ∧ u.rotatedToId = none) ∧
      (∀ e ∈ Sample.replays, RevocationKept e.before.refreshTokens
        Sample.replayed.refreshTokens) ∧
      (∀ t ∈ Sample.replayed.refreshTokens, ∀ u ∈ Sample.replayed.refreshTokens,
        t.familyId = u.familyId → t.Usable → u.Usable → t = u) ∧
      ∀ e ∈ Sample.replays, ∀ familyId, Replays Sample.state e familyId →
        ∀ t ∈ Sample.replayed.refreshTokens, t.familyId = familyId → ¬t.Usable :=
  refresh_families Sample.served_replayed.run

/-! ### Other clients -/

/-- The refresh tokens of the other clients are as they were. -/
def OthersKept (db db' : Db) (clientId : Uuid) : Prop :=
  db'.refreshTokens.filter (fun t => t.clientId ≠ clientId) =
    db.refreshTokens.filter fun t => t.clientId ≠ clientId

instance (db db' : Db) (clientId : Uuid) : Decidable (OthersKept db db' clientId) :=
  inferInstanceAs (Decidable (_ = _))

/-- A complete presentation of a used code of which another client has an unrevoked token. -/
def CrossReplay (st : AppState) (db : Db) (params : Params) (clientId : Uuid) : Prop :=
  params.get "grant_type" = some "authorization_code" ∧
    ∃ code uri verifier, Presents params code uri verifier ∧
      ∃ record ∈ db.codes, record.codeHash = st.hashToken code ∧ record.usedAt ≠ none ∧
        ∃ t ∈ db.refreshTokens, t.authorizationCodeId = some record.id ∧ t.clientId ≠ clientId ∧
          t.revokedAt = none

section others

variable {st : AppState} {d : Draws} {db db' : Db} {params : Params} {client : OAuthClient}
  {flaky : Prop}

theorem OthersKept.of_eq (h : db' .refreshTokens = db .refreshTokens) (clientId : Uuid) :
    OthersKept db db' clientId :=
  congrArg (List.filter fun t : RefreshToken => decide (t.clientId ≠ clientId)) h

/-- A change that leaves the selected rows alone. -/
theorem filter_map_fixed {α : Type} {rows : List α} {f : α → α} {p : α → Bool}
    (hp : ∀ x ∈ rows, p (f x) = p x) (hf : ∀ x ∈ rows, p x = true → f x = x) :
    (rows.map f).filter p = rows.filter p := by
  have hsame : rows.filter (p ∘ f) = rows.filter p := List.filter_congr hp
  rw [List.filter_map, hsame]
  refine (List.map_congr_left fun x hx => ?_).trans (List.map_id _)
  obtain ⟨hmem, hx⟩ := List.mem_filter.1 hx
  exact hf x hmem hx

/-- A change that keeps the owners, and the tokens of the others. -/
theorem filter_map_others {rows : List RefreshToken} {f : RefreshToken → RefreshToken}
    {clientId : Uuid} (howner : ∀ t ∈ rows, (f t).clientId = t.clientId)
    (hother : ∀ t ∈ rows, t.clientId ≠ clientId → f t = t) :
    (rows.map f).filter (fun t => t.clientId ≠ clientId) =
      rows.filter fun t => t.clientId ≠ clientId :=
  filter_map_fixed (fun t ht => by rw [howner t ht]) fun t ht h => hother t ht (by simpa using h)

theorem othersKept_revokeFamily (hfam : Families db.refreshTokens) {record : RefreshToken}
    (hmem : record ∈ db.refreshTokens) :
    OthersKept db (db.after (.tokensRevokeFamily record.familyId d.now)) record.clientId := by
  rw [OthersKept, Db.after_tokensRevokeFamily]
  refine filter_map_others (fun t ht => ?_) fun t ht hclient => ?_
  · rw [RefreshToken.revokeIf]
    split_ifs <;> rfl
  · rw [RefreshToken.revokeIf, if_neg]
    simp only [decide_eq_true_eq]
    exact fun h => hclient (hfam.sameGrant t ht record hmem h.1).clientId

theorem Token.RefreshEffect.othersKept {r : Except AppError TokenResponse}
    (h : RefreshEffect st d client params flaky db r db') (hu : db.Unique)
    (hfam : Families db.refreshTokens) : OthersKept db db' client.id := by
  cases h with
  | replayed hraw requested hrequested record hf h =>
      rw [← (RefreshToken.checkUsable_alreadyRotated.1 h).1]
      exact othersKept_revokeFamily hfam hf.mem
  | refreshed hraw record hf hok requested hrequested granted scope hgranted hscope response hsigned
      hinsert =>
      have hrow (t : RefreshToken) (ht : t ∈ db.refreshTokens ++ [nextToken st d client record]) :
          t.id = record.id → t.clientId = client.id := by
        intro hid
        rcases List.mem_append.1 ht with ht | ht
        · rw [hu.eq (t := .refreshTokens) ht hf.mem (by simp [clash, hid])]
          exact (checkUsable_ok hok).1
        · rw [List.mem_singleton.1 ht]
          rfl
      rw [OthersKept, Db.after_tokensMarkRotated, Db.after_tokensInsert _ hinsert, filter_map_others]
      · rw [List.filter_append, List.filter_singleton]
        simp [nextToken, Refresh.newRecord]
      · intro t ht
        rw [RefreshToken.rotate]
        split_ifs <;> rfl
      · exact fun t ht hclient => if_neg fun hid => hclient (hrow t ht hid)
  | _ => exact .of_eq rfl _

theorem Token.CodeEffect.othersKept {r : Except AppError TokenResponse}
    (h : CodeEffect st d client params flaky db r db')
    (hg : params.get "grant_type" = some "authorization_code") (hfam : Families db.refreshTokens)
    (hcross : ¬CrossReplay st db params client.id) : OthersKept db db' client.id := by
  have hclaim (codeHash : String) :
      db.after (.codesClaim codeHash d.now) .refreshTokens = db .refreshTokens :=
    db.after_of_writes (by simp [Stmt.writes])
  cases h with
  | replayed hp used hmem hhash hused =>
      rw [OthersKept, Db.after_tokensRevokeByAuthorizationCode]
      refine filter_map_others (fun t ht => ?_) fun t ht hclient => ?_
      · rw [RefreshToken.revokeIf]
        split_ifs <;> rfl
      · rw [RefreshToken.revokeIf, if_neg]
        rintro ⟨hborn, hunrevoked⟩
        obtain ⟨b, hb, hbcode⟩ := List.any_eq_true.1 hborn
        simp only [decide_eq_true_eq] at hbcode
        have hsame := hfam.sameGrant b hb t ht hbcode.2
        exact hcross ⟨hg, _, _, _, hp, used, hmem, hhash, hused used hmem hhash, b, hb, hbcode.1,
          hsame.clientId ▸ hclient, (hfam.revoked b hb t ht hbcode.2).2 hunrevoked⟩
  | rejected => exact .of_eq (hclaim _) _
  | redeemed => exact .of_eq (hclaim _) _
  | redeemedOffline hp record hrecord hb scope hscope hoffline response hsigned hinsert =>
      have hinserted := Db.after_tokensInsert _ hinsert
      rw [OthersKept, hinserted, List.filter_append, List.filter_singleton]
      rw [show (db.after (.codesClaim _ d.now)).refreshTokens = db.refreshTokens from hclaim _]
      simp [firstToken, Refresh.newRecord]
  | _ => exact .of_eq rfl _

theorem Login.othersKept {headers : HeaderMap} {pairs : List (String × String)} {req : Request}
    (hl : Login st db (authorizationHeader headers) pairs params client)
    (hreq : ClientRequest headers (some pairs) req) (hu : db.Unique)
    (hfam : Families db.refreshTokens)
    (hcross : ¬(req = .token headers (some pairs) ∧ CrossReplay st db params client.id))
    (faults : List Bool) : OthersKept db (serve st d faults req db).2 client.id := by
  cases hreq with
  | token =>
      obtain ⟨r, -, heffect⟩ := serve_token st d headers pairs faults db
      generalize (serve st d faults (.token headers (some pairs)) db).2 = db' at heffect ⊢
      cases heffect with
      | failed => exact .of_eq rfl _
      | refused => exact .of_eq rfl _
      | code params' client' hl' hg r db' h =>
          obtain ⟨rfl, rfl⟩ := hl.eq hl'
          exact h.othersKept (GrantType.parse_eq_ok.1 hg) hfam fun h => hcross ⟨rfl, h⟩
      | refresh params' client' hl' hg r db' h =>
          obtain ⟨rfl, rfl⟩ := hl.eq hl'
          exact h.othersKept hu hfam
  | revoke =>
      obtain ⟨r, -, heffect⟩ := serve_revoke st d headers pairs faults db
      generalize (serve st d faults (.revoke headers (some pairs)) db).2 = db' at heffect ⊢
      cases heffect with
      | revoked params' client' hl' token htoken record hf howner =>
          obtain ⟨rfl, rfl⟩ := hl.eq hl'
          rw [← howner]
          exact othersKept_revokeFamily hfam hf.mem
      | _ => exact .of_eq rfl _

/-- Such a presentation revokes the other client's token. -/
theorem CrossReplay.not_othersKept {headers : HeaderMap} {pairs : List (String × String)}
    (hl : Login st db (authorizationHeader headers) pairs params client) (hu : db.Unique)
    (hfam : Families db.refreshTokens) (hcross : CrossReplay st db params client.id) :
    ¬OthersKept db (serve st d [] (.token headers (some pairs)) db).2 client.id := by
  obtain ⟨hg, code, uri, verifier, hp, record, hmem, hhash, hused, t, ht, hborn, hclient,
    hunrevoked⟩ := hcross
  have hreplay : Replays st ⟨.token headers (some pairs), d, [], db,
      (serve st d [] (.token headers (some pairs)) db).1⟩ t.familyId :=
    .code headers pairs rfl (by simp) params client hl hg code uri verifier hp record hmem hhash hused
      t ht hborn rfl
  intro hkept
  have hmem' : t ∈ db.refreshTokens.filter fun t => t.clientId ≠ client.id :=
    List.mem_filter.2 ⟨ht, by simpa using hclient⟩
  rw [← hkept] at hmem'
  exact hreplay.dead hu hfam t (List.mem_filter.1 hmem').1 rfl hunrevoked

/-- **A client leaves the refresh tokens of the others alone, exactly when it does not present a
used code of theirs.** -/
theorem others_kept_iff {headers : HeaderMap} {pairs : List (String × String)} {req : Request}
    (hr : Reachable st db) (hl : Login st db (authorizationHeader headers) pairs params client)
    (hreq : ClientRequest headers (some pairs) req) :
    (∀ faults, OthersKept db (serve st d faults req db).2 client.id) ↔
      ¬(req = .token headers (some pairs) ∧ CrossReplay st db params client.id) := by
  obtain ⟨es, run⟩ := hr
  have hfam := run.familyInv.families
  constructor
  · rintro h ⟨rfl, hcross⟩
    exact hcross.not_othersKept hl run.unique hfam (h [])
  · exact fun hcross faults => hl.othersKept hreq run.unique hfam hcross faults

end others

namespace Sample

/-- The parameters of the second client's request. -/
def exchangeParams : Params := ⟨(exchangeForm clientB.clientId).reverse, by decide +kernel⟩

theorem login : Login state exchanged none (exchangeForm clientB.clientId) exchangeParams clientB where
  params_ok := by rfl
  authenticated := ⟨⟨clientB.clientId, none⟩, by decide +kernel, by decide +kernel, rfl, rfl⟩

end Sample

/-- The second client revokes the token of the first by presenting its code. -/
theorem replay_revokes_others : Reachable Sample.state Sample.exchanged ∧
    Login Sample.state Sample.exchanged (authorizationHeader Sample.noHeaders)
      (Sample.exchangeForm Sample.clientB.clientId) Sample.exchangeParams Sample.clientB ∧
    ¬OthersKept Sample.exchanged (serve Sample.state (Sample.draws 6) []
      (Sample.exchange Sample.clientB.clientId) Sample.exchanged).2 Sample.clientB.id := by
  refine ⟨⟨_, Sample.served_exchanged.run⟩, Sample.login, ?_⟩
  rw [Sample.rows_inj Sample.serve_replay.2]
  decide +kernel

theorem others_kept_iff_replay :
    (∀ faults, OthersKept Sample.exchanged (serve Sample.state (Sample.draws 6) faults
        (Sample.exchange Sample.clientB.clientId) Sample.exchanged).2 Sample.clientB.id) ↔
      ¬(Sample.exchange Sample.clientB.clientId = .token Sample.noHeaders
          (some (Sample.exchangeForm Sample.clientB.clientId)) ∧
        CrossReplay Sample.state Sample.exchanged Sample.exchangeParams Sample.clientB.id) :=
  others_kept_iff ⟨_, Sample.served_exchanged.run⟩ Sample.login .token

end SharpOauth
