import SharpOauth.TokenThreads
import SharpOauth.RefreshIsolation

/-! # Nothing is redeemed twice

Whatever requests run at the same time, and wherever their calls fail: a code or a refresh token is
exchanged by at most one of them, and only if it was not before; and in every committed state the
tokens of a family form one chain with one head (`token_races`, `redeemed_once`).  A request that deletes an
application never gets to its `DELETE`.

The invariant `Woven` says of the committed tables what `FamilyInv` says after whole requests, but for
one thing: a family need not be revoked as a whole, since a revocation does not reach a successor that
is inserted at the same time (`RevocationRaces`). -/

namespace SharpOauth

open Token

variable {ι : Type}

/-! ### Families, but for revocation -/

/-- The token, not revoked. -/
def RefreshToken.unrevoked (t : RefreshToken) : RefreshToken := { t with revokedAt := none }

theorem Chain.congr {rows rows' : List RefreshToken} {familyId : Uuid} {l : List RefreshToken}
    (h : Chain rows familyId l) (hrows : ∀ x, x ∈ rows' ↔ x ∈ rows) : Chain rows' familyId l :=
  ⟨fun x => by rw [h.mem_iff, hrows], h.nodup, h.linked⟩

/-- The order of the rows does not matter. -/
theorem Families.congr {rows rows' : List RefreshToken} (h : Families rows)
    (hrows : ∀ x, x ∈ rows' ↔ x ∈ rows) : Families rows' where
  chain t ht := by
    obtain ⟨l, hl⟩ := h.chain t ((hrows t).1 ht)
    exact ⟨l, hl.congr hrows⟩
  sameGrant t ht u hu := h.sameGrant t ((hrows t).1 ht) u ((hrows u).1 hu)
  oneFamily t ht u hu := h.oneFamily t ((hrows t).1 ht) u ((hrows u).1 hu)
  revoked t ht u hu := h.revoked t ((hrows t).1 ht) u ((hrows u).1 hu)
  lifetime t ht := h.lifetime t ((hrows t).1 ht)

/-- Families stay families when revocations are forgotten. -/
theorem Families.unrevoked {rows : List RefreshToken} (h : Families rows) :
    Families (rows.map RefreshToken.unrevoked) := by
  have hrelabel : Relabels rows RefreshToken.unrevoked := by
    constructor
    case sameGrant => exact fun t u h => ⟨h.clientId, h.userId, h.scope, h.authTime, h.authorizationCodeId⟩
    case code => exact fun t code h => h
    case revoked => exact fun t _ u _ _ => Iff.rfl
    all_goals exact fun t => rfl
  have hall := h.relabel (fun _ => true) (fun _ _ _ _ _ => rfl) hrelabel
  rwa [List.filter_true] at hall

/-! ### The invariant -/

/-- The draws of requests that run at the same time, after the events `es`. -/
structure FreshTogether (es : List Event) (d : ι → Draws) : Prop where
  fresh : ∀ i, Fresh es (d i)
  apart : ∀ i j, i ≠ j → ∀ a b, (d i).uuid a ≠ (d j).uuid b

/-- The refresh tokens hang together. -/
structure Woven (es : List Event) (d : ι → Draws) (db : Db) : Prop where
  families : Families (db.refreshTokens.map RefreshToken.unrevoked)
  origin : ∀ t ∈ db.refreshTokens, ∀ code, t.authorizationCodeId = some code →
    ∃ c ∈ db.codes, c.id = code ∧ c.usedAt ≠ none
  drawn : ∀ t ∈ db.refreshTokens, (∃ e ∈ es, ∃ n, e.draws.uuid n = t.familyId) ∨
    ∃ k, (d k).uuid 1 = t.familyId ∧ ∃ t' ∈ db.refreshTokens, t'.id = (d k).uuid 2

/-- At the start. -/
theorem FamilyInv.woven {es : List Event} {db : Db} (h : FamilyInv es db) (d : ι → Draws) :
    Woven es d db where
  families := h.families.unrevoked
  origin := h.origin
  drawn t ht := .inl (h.family_drawn t ht)

/-- A family that a request starts is new. -/
theorem Woven.new_family {es : List Event} {d : ι → Draws} {i : ι} {db : Db} (h : Woven es d db)
    (hd : FreshTogether es d) (hnew : ∀ t ∈ db.refreshTokens, t.id ≠ (d i).uuid 2) {t : RefreshToken}
    (ht : t ∈ db.refreshTokens) : t.familyId ≠ (d i).uuid 1 := by
  intro hfamily
  rcases h.drawn t ht with ⟨e, he, n, hn⟩ | ⟨k, hk, u, hu, hid⟩
  · exact (hd.fresh i).uuid_new e he n 1 (hn.trans hfamily)
  · by_cases hki : k = i
    · subst hki
      exact hnew u hu hid
    · exact hd.apart k i hki 1 1 (hk.trans hfamily)

/-- A family comes from one code. -/
theorem Woven.same_code {es : List Event} {d : ι → Draws} {db : Db} (h : Woven es d db)
    {t u : RefreshToken} (ht : t ∈ db.refreshTokens) (hu : u ∈ db.refreshTokens)
    (hfamily : t.familyId = u.familyId) : t.authorizationCodeId = u.authorizationCodeId :=
  (h.families.sameGrant _ (List.mem_map_of_mem ht) _ (List.mem_map_of_mem hu) hfamily).authorizationCodeId

section commits

variable {st : AppState} {es : List Event} {d : ι → Draws} {i : ι} {w : World ι Sharp}
  {log : List (Version Sharp)}

/-- Each new row is an old one with the same grant, or one with these properties. -/
theorem Woven.commit (h : Woven es d w.db) (hsince : Since [.commit i w.db log] w (w.commit i log))
    (hfamilies : Families (((w.commit i log).db .refreshTokens).map RefreshToken.unrevoked))
    (hrows : ∀ t' ∈ (w.commit i log).db .refreshTokens,
      (∃ t ∈ w.db .refreshTokens, RefreshToken.familyId t = RefreshToken.familyId t' ∧
        RefreshToken.authorizationCodeId t = RefreshToken.authorizationCodeId t') ∨
      ((d i).uuid 1 = RefreshToken.familyId t' ∧ RefreshToken.id t' = (d i).uuid 2 ∧
        ∀ code, RefreshToken.authorizationCodeId t' = some code →
          ∃ c ∈ (w.commit i log).db .codes, AuthorizationCode.id c = code ∧
            AuthorizationCode.usedAt c ≠ none)) : Woven es d (w.commit i log).db where
  families := hfamilies
  origin t' ht' code hcode := by
    rcases hrows t' ht' with ⟨t, ht, -, hsame⟩ | ⟨-, -, hnew⟩
    · obtain ⟨c, hc, hid, hused⟩ := h.origin t ht code (hsame.trans hcode)
      obtain ⟨c', hc', hlater⟩ := hsince.codes c hc
      exact ⟨c', hc', hlater.id.trans hid, hlater.used hused⟩
    · exact hnew code hcode
  drawn t' ht' := by
    rcases hrows t' ht' with ⟨t, ht, hfamily, -⟩ | ⟨hfamily, hid, -⟩
    · rcases h.drawn t ht with ⟨e, he, n, hn⟩ | ⟨k, hk, u, hu, hid⟩
      · exact .inl ⟨e, he, n, hn.trans hfamily⟩
      · obtain ⟨u', hu', hlater⟩ := hsince.tokens u hu
        exact .inr ⟨k, hk.trans hfamily, u', hu', hlater.id.trans hid⟩
    · exact .inr ⟨i, hfamily, t', ht', hid⟩

/-- A commit that adds or changes no token. -/
theorem Woven.same (h : Woven es d w.db) (hsince : Since [.commit i w.db log] w (w.commit i log))
    (hlog : ∀ v ∈ log, v.table ≠ .refreshTokens) : Woven es d (w.commit i log).db := by
  have hmem (t : RefreshToken) : t ∈ (w.commit i log).db .refreshTokens ↔ t ∈ w.db .refreshTokens :=
    mem_install_of_ne (S := Sharp) (t := .refreshTokens) fun v hv hid => hlog v hv (congrArg Prod.fst hid)
  refine h.commit hsince (h.families.congr fun x => ?_) fun t' ht' => .inl ⟨t', (hmem t').1 ht', rfl, rfl⟩
  simp only [List.mem_map]
  exact exists_congr fun t => and_congr_left fun _ => hmem t

/-- A token is revoked. -/
theorem Woven.revoke (h : Woven es d w.db) (hdb : Sharp.Distinct w.db)
    (hsince : Since [.commit i w.db log] w (w.commit i log))
    (hlog : ∀ v ∈ log, ∃ t ∈ w.db .refreshTokens,
      v = ⟨Table.refreshTokens, RefreshToken.revokedBy t (d i).now⟩) : Woven es d (w.commit i log).db := by
  have hold (t' : RefreshToken) (ht' : t' ∈ (w.commit i log).db .refreshTokens) :
      ∃ t ∈ w.db .refreshTokens, RefreshToken.unrevoked t = t'.unrevoked := by
    rcases mem_install ht' with hv | ⟨ht', -⟩
    · obtain ⟨t, ht, heq⟩ := hlog _ hv
      cases heq
      exact ⟨t, ht, rfl⟩
    · exact ⟨t', ht', rfl⟩
  have hnew (t : RefreshToken) (ht : t ∈ w.db .refreshTokens) :
      ∃ t' ∈ (w.commit i log).db .refreshTokens, RefreshToken.unrevoked t' = t.unrevoked := by
    have hversion : ∀ t', (⟨Table.refreshTokens, t'⟩ : Version Sharp) ∈ log →
        key .refreshTokens t' = key .refreshTokens t → RefreshToken.unrevoked t' = t.unrevoked := by
      intro t' hv hkey
      obtain ⟨u, hu, heq⟩ := hlog _ hv
      cases heq
      obtain rfl : t = u := Locking.eq_of_key (hdb.keys .refreshTokens) ht hu hkey.symm
      rfl
    obtain ⟨t', ht', -, heq⟩ := exists_install_of_mem (S := Sharp) (t := .refreshTokens)
      (R := fun t t' => RefreshToken.unrevoked t' = t.unrevoked) (fun _ => rfl) ht hversion
    exact ⟨t', ht', heq⟩
  refine h.commit hsince (h.families.congr fun x => ?_) fun t' ht' => .inl ?_
  · rw [List.mem_map, List.mem_map]
    constructor
    · rintro ⟨t', ht', rfl⟩
      exact hold t' ht'
    · rintro ⟨t, ht, rfl⟩
      exact hnew t ht
  · obtain ⟨t, ht, heq⟩ := hold t' ht'
    have heq' : t.familyId = t'.familyId ∧ t.authorizationCodeId = t'.authorizationCodeId :=
      ⟨(congrArg RefreshToken.familyId heq : _), (congrArg RefreshToken.authorizationCodeId heq : _)⟩
    exact ⟨t, ht, heq'.1, heq'.2⟩

/-- A code is exchanged for the first token of a new family. -/
theorem Woven.redeem (h : Woven es d w.db) (hd : FreshTogether es d) (hdb : Sharp.Distinct w.db)
    {client : OAuthClient} {record : AuthorizationCode} (hmem : record ∈ w.db .codes)
    (hunused : record.usedAt = none)
    (hnew : ∀ t ∈ w.db .refreshTokens, RefreshToken.id t ≠ (d i).uuid 2)
    (hlog : log = [⟨Table.codes, record.usedBy (d i).now⟩,
      ⟨Table.refreshTokens, firstToken st (d i) client record⟩])
    (hsince : Since [.commit i w.db log] w (w.commit i log)) : Woven es d (w.commit i log).db := by
  set first := firstToken st (d i) client record with hfirst
  have hrow (t : RefreshToken) : t ∈ (w.commit i log).db .refreshTokens ↔
      t ∈ w.db .refreshTokens ∨ t = first := by
    rw [World.commit_db, hlog, install_cons, install_cons, install_nil, mem_put_iff,
      Version.put_ne (by simp)]
    constructor
    · rintro (heq | ⟨ht, -⟩)
      · cases heq
        exact .inr rfl
      · exact .inl ht
    · rintro (ht | rfl)
      · exact .inr ⟨ht, fun hid => hnew t ht (Sum.inl.inj (congrArg Prod.snd hid)).symm⟩
      · exact .inl rfl
  have hused : ∃ c ∈ (w.commit i log).db .codes, AuthorizationCode.id c = record.id ∧
      AuthorizationCode.usedAt c ≠ none := by
    refine ⟨record.usedBy (d i).now, ?_, rfl, by simp [AuthorizationCode.usedBy]⟩
    rw [World.commit_db, hlog, install_cons, install_cons, install_nil, Version.put_ne (by simp)]
    exact mem_put_iff.2 (.inl rfl)
  refine h.commit hsince ?_ fun t' ht' => ?_
  · refine (h.families.born (t := first) (fun u hu hfamily => ?_) (fun u hu code hcode hucode => ?_) rfl rfl).congr
      fun x => ?_
    · obtain ⟨t, ht, rfl⟩ := List.mem_map.1 hu
      exact h.new_family hd hnew ht hfamily
    · obtain ⟨t, ht, rfl⟩ := List.mem_map.1 hu
      obtain ⟨c, hc, hid, hcused⟩ := h.origin t ht code hucode
      have heq : c = record := hdb.rows .codes c record hc hmem
        (by simp [clash, hid.trans (Option.some.inj hcode).symm])
      exact hcused (heq ▸ hunused)
    · rw [List.mem_map, List.mem_append, List.mem_map, List.mem_singleton]
      constructor
      · rintro ⟨t, ht, rfl⟩
        rcases (hrow t).1 ht with ht | rfl
        · exact .inl ⟨t, ht, rfl⟩
        · exact .inr rfl
      · rintro (⟨t, ht, rfl⟩ | rfl)
        · exact ⟨t, (hrow t).2 (.inl ht), rfl⟩
        · exact ⟨first, (hrow first).2 (.inr rfl), rfl⟩
  · rcases (hrow t').1 ht' with ht' | rfl
    · exact .inl ⟨t', ht', rfl, rfl⟩
    · refine .inr ⟨rfl, rfl, fun code hcode => ?_⟩
      obtain rfl := Option.some.inj hcode
      exact hused

/-- A token is exchanged for its successor. -/
theorem Woven.refresh (h : Woven es d w.db) (hdb : Sharp.Distinct w.db) {client : OAuthClient}
    {record : RefreshToken} (hmem : record ∈ w.db .refreshTokens)
    (hok : record.checkUsable client.id (d i).now = .ok ())
    (hnew : ∀ t ∈ w.db .refreshTokens, RefreshToken.id t ≠ (d i).uuid 2)
    (hlog : log = [⟨Table.refreshTokens, nextToken st (d i) client record⟩,
      ⟨Table.refreshTokens, record.rotatedTo ((d i).uuid 2)⟩])
    (hsince : Since [.commit i w.db log] w (w.commit i log)) : Woven es d (w.commit i log).db := by
  obtain ⟨hclient, -, hlast, -⟩ := checkUsable_ok hok
  set next := nextToken st (d i) client record with hnext
  have hid : ∀ t ∈ w.db .refreshTokens, RefreshToken.id t = record.id → t = record := fun t ht hid =>
    Locking.eq_of_key (hdb.keys .refreshTokens) ht hmem (congrArg Sum.inl hid)
  have hrow (t : RefreshToken) : t ∈ (w.commit i log).db .refreshTokens ↔
      t = record.rotatedTo ((d i).uuid 2) ∨ t = next ∨ t ∈ w.db .refreshTokens ∧ t ≠ record := by
    rw [World.commit_db, hlog, install_cons, install_cons, install_nil, mem_put_iff, mem_put_iff]
    constructor
    · rintro (heq | ⟨heq | ⟨ht, -⟩, hne⟩)
      · cases heq
        exact .inl rfl
      · cases heq
        exact .inr (.inl rfl)
      · exact .inr (.inr ⟨ht, fun heq => hne (by rw [heq]; rfl)⟩)
    · rintro (rfl | rfl | ⟨ht, hne⟩)
      · exact .inl rfl
      · refine .inr ⟨.inl rfl, fun heq => hnew record hmem ?_⟩
        exact Sum.inl.inj (congrArg Prod.snd heq)
      · refine .inr ⟨.inr ⟨ht, fun heq => hnew t ht ?_⟩, fun heq => hne (hid t ht ?_)⟩
        · exact (Sum.inl.inj (congrArg Prod.snd heq)).symm
        · exact (Sum.inl.inj (congrArg Prod.snd heq)).symm
  refine h.commit hsince ?_ fun t' ht' => .inl ?_
  · have hids : ∀ u ∈ (w.db .refreshTokens).map RefreshToken.unrevoked, u.id = record.id →
        u = record.unrevoked := by
      intro u hu heq
      obtain ⟨t, ht, rfl⟩ := List.mem_map.1 hu
      rw [hid t ht heq]
    have hnext : ∀ u ∈ (w.db .refreshTokens).map RefreshToken.unrevoked, u.id ≠ next.id := by
      intro u hu
      obtain ⟨t, ht, rfl⟩ := List.mem_map.1 hu
      exact hnew t ht
    have hrecord : RefreshToken.rotate record.id next.id record.unrevoked =
        (record.rotatedTo ((d i).uuid 2)).unrevoked := if_pos rfl
    have hother (t : RefreshToken) (hne : t.id ≠ record.id) :
        RefreshToken.rotate record.id next.id t.unrevoked = t.unrevoked := Families.rotate_eq_self hne
    have hmem' : record.unrevoked ∈ (w.db .refreshTokens).map RefreshToken.unrevoked :=
      List.mem_map_of_mem hmem
    have hgrant : SameGrant next record.unrevoked := ⟨hclient.symm, rfl, rfl, rfl, rfl⟩
    have hrotated := h.families.rotate hmem' hlast rfl hids hnext rfl hgrant rfl rfl rfl
    refine hrotated.congr fun x => ?_
    rw [List.mem_map, List.mem_map]
    constructor
    · rintro ⟨t, ht, rfl⟩
      rcases (hrow t).1 ht with rfl | rfl | ⟨ht, hne⟩
      · exact ⟨_, List.mem_append_left _ (List.mem_map_of_mem hmem), hrecord⟩
      · exact ⟨next, List.mem_append_right _ (List.mem_singleton_self _),
          hother next (hnew record hmem).symm⟩
      · exact ⟨_, List.mem_append_left _ (List.mem_map_of_mem ht), hother t fun heq => hne (hid t ht heq)⟩
    · rintro ⟨u, hu, rfl⟩
      rcases List.mem_append.1 hu with hu | hu
      · obtain ⟨t, ht, rfl⟩ := List.mem_map.1 hu
        by_cases heq : t = record
        · subst heq
          exact ⟨_, (hrow _).2 (.inl rfl), hrecord.symm⟩
        · exact ⟨t, (hrow t).2 (.inr (.inr ⟨ht, heq⟩)), (hother t fun h => heq (hid t ht h)).symm⟩
      · rw [List.mem_singleton.1 hu]
        exact ⟨next, (hrow next).2 (.inr (.inl rfl)), (hother next (hnew record hmem).symm).symm⟩
  · rcases (hrow t').1 ht' with rfl | rfl | ⟨ht', -⟩
    · exact ⟨record, hmem, rfl, rfl⟩
    · exact ⟨record, hmem, rfl, rfl⟩
    · exact ⟨t', ht', rfl, rfl⟩

/-- **A commit keeps the invariant.** -/
theorem TokenCommit.woven (hcommit : TokenCommit st (d i) w.db log) (h : Woven es d w.db)
    (hd : FreshTogether es d) (hdb : Sharp.Distinct w.db) : Woven es d (w.commit i log).db := by
  have hsince := hcommit.since hdb i
  cases hcommit with
  | quiet _ hquiet =>
      refine h.same hsince fun v hv => ?_
      cases hquiet v hv with
      | code => simp
      | other _ hcodes htokens => exact htokens
  | claimed record hmem hunused =>
      refine h.same hsince fun v hv => ?_
      simp [List.mem_singleton.1 hv]
  | redeemed client record hmem hunused hnew => exact h.redeem hd hdb hmem hunused hnew rfl hsince
  | refreshed client record hmem hok hnew => exact h.refresh hdb hmem hok hnew rfl hsince
  | revoked _ hrevoked =>
      refine h.revoke hdb hsince fun v hv => ?_
      obtain ⟨t, ht, -, heq⟩ := hrevoked v hv
      exact ⟨t, ht, heq⟩

end commits

/-! ### Chains -/

section chains

variable {es : List Event} {d : ι → Draws} {db : Db}

/-- One token of a family has not been rotated. -/
theorem Woven.existsUnique_head (h : Woven es d db) (hdb : Sharp.Distinct db) {t : RefreshToken}
    (ht : t ∈ db.refreshTokens) :
    ∃! u, u ∈ db.refreshTokens ∧ u.familyId = t.familyId ∧ u.rotatedToId = none := by
  obtain ⟨u, ⟨hu, hfamily, hlast⟩, huniq⟩ := h.families.existsUnique_head (List.mem_map_of_mem ht)
  obtain ⟨u, hu', rfl⟩ := List.mem_map.1 hu
  refine ⟨u, ⟨hu', hfamily, hlast⟩, fun v ⟨hv, hvfamily, hvlast⟩ => ?_⟩
  have heq : v.unrevoked = u.unrevoked := huniq _ ⟨List.mem_map_of_mem hv, hvfamily, hvlast⟩
  exact Locking.eq_of_key (hdb.keys .refreshTokens) hv hu'
    (congrArg Sum.inl (congrArg RefreshToken.id heq : _))

/-- A token is the successor of at most one token. -/
theorem Woven.next_inj (h : Woven es d db) (hdb : Sharp.Distinct db) {t u : RefreshToken}
    (ht : t ∈ db.refreshTokens) (hu : u ∈ db.refreshTokens) {next : Uuid}
    (htnext : t.rotatedToId = some next) (hunext : u.rotatedToId = some next) : t = u := by
  obtain ⟨l, hl⟩ := h.families.chain _ (List.mem_map_of_mem ht)
  obtain ⟨l', hl'⟩ := h.families.chain _ (List.mem_map_of_mem hu)
  have htl : t.unrevoked ∈ l := (hl.mem_iff _).2 ⟨List.mem_map_of_mem ht, rfl⟩
  have hul : u.unrevoked ∈ l' := (hl'.mem_iff _).2 ⟨List.mem_map_of_mem hu, rfl⟩
  -- The successor is in both families, so they are one.
  obtain ⟨x, hx, hxid⟩ := hl.linked.exists_next htl htnext
  obtain ⟨y, hy, hyid⟩ := hl'.linked.exists_next hul hunext
  obtain ⟨hx, hxfamily⟩ := (hl.mem_iff x).1 hx
  obtain ⟨hy, hyfamily⟩ := (hl'.mem_iff y).1 hy
  obtain ⟨x, hx', rfl⟩ := List.mem_map.1 hx
  obtain ⟨y, hy', rfl⟩ := List.mem_map.1 hy
  have hxy : x = y := Locking.eq_of_key (hdb.keys .refreshTokens) hx' hy'
    (congrArg Sum.inl (hxid.trans hyid.symm : x.id = y.id))
  have hfamily : u.unrevoked.familyId = t.unrevoked.familyId := by rw [← hyfamily, ← hxfamily, hxy]
  have hul' : u.unrevoked ∈ l := (hl.mem_iff _).2 ⟨List.mem_map_of_mem hu, hfamily⟩
  have heq : t.unrevoked = u.unrevoked := hl.linked.next_inj hl.nodup htl hul' htnext hunext
  exact Locking.eq_of_key (hdb.keys .refreshTokens) ht hu
    (congrArg Sum.inl (congrArg RefreshToken.id heq : _))

/-- Every family has one head, and every token is the successor of at most one. -/
structure Unforked (rows : List RefreshToken) : Prop where
  head : ∀ t ∈ rows, ∃! u, u ∈ rows ∧ u.familyId = t.familyId ∧ u.rotatedToId = none
  next_inj : ∀ t ∈ rows, ∀ u ∈ rows, ∀ next, t.rotatedToId = some next → u.rotatedToId = some next → t = u

theorem Woven.unforked (h : Woven es d db) (hdb : Sharp.Distinct db) : Unforked db.refreshTokens where
  head _ ht := h.existsUnique_head hdb ht
  next_inj _ ht _ hu _ := h.next_inj hdb ht hu

end chains

/-! ### Runs -/

/-- The requests, all at the same time. -/
def serveTogether (st : AppState) (d : ι → Draws) (req : ι → Request) (db : Db) :
    Machine ι Sharp Empty Response := .start (fun i => respond st (d i) (req i)) db

/-- The request presents the string with this hash, for tokens. -/
def Exchanges (st : AppState) (req : Request) (grant param hash : String) : Prop :=
  ∃ headers pairs params value, req = .token headers (some pairs) ∧ Params.fromPairs pairs = .ok params ∧
    params.get "grant_type" = some grant ∧ params.get param = some value ∧ st.hashToken value = hash

/-- The request has been answered with tokens. -/
def Succeeds (m : Machine ι Sharp Empty Response) (i : ι) : Prop :=
  ∃ r tokens, (m.threads i).prog = .ret r ∧ r.body = .tokens tokens

section runs

variable {st : AppState} {es : List Event} {db : Db} {d : ι → Draws} {req : ι → Request}

theorem Run.woven (run : Run st es db) (hd : FreshTogether es d) {w : World ι Sharp}
    (h : (tokenContract st d).History ⟨db, []⟩ w) : Woven es d w.db := by
  induction h with
  | start => exact run.familyInv.woven d
  | note h i q s ih => exact ih
  | commit h i log hdistinct hguar ih => exact hguar.woven ih hd hdistinct

theorem codeUsed_kept (h : String) (i : ι) (w : World ι Sharp) (log : List (Version Sharp))
    (hdb : Sharp.Distinct w.db) (hguar : TokenCommit st (d i) w.db log) :
    CodeUsed h w.db → CodeUsed h (install log w.db) := by
  rintro ⟨c, hc, hhash, hused⟩
  obtain ⟨c', hc', hlater⟩ := (hguar.since hdb i).codes c hc
  exact ⟨c', hc', hlater.codeHash.trans hhash, hlater.used hused⟩

theorem tokenSpent_kept (h : String) (i : ι) (w : World ι Sharp) (log : List (Version Sharp))
    (hdb : Sharp.Distinct w.db) (hguar : TokenCommit st (d i) w.db log) :
    TokenSpent h w.db → TokenSpent h (install log w.db) := by
  rintro ⟨t, ht, hhash, hspent⟩
  obtain ⟨t', ht', hlater⟩ := (hguar.since hdb i).tokens t ht
  exact ⟨t', ht', hlater.tokenHash.trans hhash, hspent.imp hlater.rotated hlater.revoked⟩

variable [Fintype ι] [DecidableEq ι] {schedule : List (ι × Bool)}
  {m : Machine ι Sharp Empty Response}

/-- **The contract holds in every run.** -/
theorem Run.ok (run : Run st es db) (hrun : (serveTogether st d req db).run schedule = some m) :
    m.Ok (tokenContract st d) (fun i r w => Outcome st i (req i) r w) ⟨db, []⟩ :=
  Machine.run_ok sharp_keyed run.unique.distinct
    (fun i => respond_safe (fun _ _ hmem => by cases hmem) (req i)) hrun

/-- A request that was answered with tokens has set the flag of what it presented. -/
theorem Run.setBy (run : Run st es db) (hrun : (serveTogether st d req db).run schedule = some m)
    {i : ι} (hsucceeds : Succeeds m i) {hash : String} :
    (Exchanges st (req i) "authorization_code" "code" hash → m.world.SetBy i (CodeUsed hash)) ∧
      (Exchanges st (req i) "refresh_token" "refresh_token" hash →
        m.world.SetBy i (TokenSpent hash)) := by
  obtain ⟨r, tokens, hret, hbody⟩ := hsucceeds
  obtain ⟨w, ⟨entries, hsince, -⟩, houtcome⟩ := (run.ok hrun).result i hret
  have hlater {flag : Db → Prop} (h : w.SetBy i flag) : m.world.SetBy i flag := by
    obtain ⟨db', log, hmem, hset⟩ := h
    exact ⟨db', log, hsince.trace ▸ List.mem_append_right _ hmem, hset⟩
  have hanswer {headers : HeaderMap} {pairs : List (String × String)}
      (hreq : req i = .token headers (some pairs)) : ∃ tokens, TokenOutcome st i pairs (.ok tokens) w := by
    obtain ⟨r', hr, h⟩ := houtcome.1 headers pairs hreq
    obtain rfl := Except.ok.inj hr
    cases r' with
    | ok tokens => exact ⟨tokens, h⟩
    | error e => simp [tokenResponse, AppError.intoResponse] at hbody
  constructor
  · rintro ⟨headers, pairs, params, value, hreq, hparams, hgrant, hvalue, rfl⟩
    obtain ⟨tokens, h⟩ := hanswer hreq
    obtain ⟨code, hcode, hset⟩ := (h params hparams).1 hgrant
    obtain rfl := Option.some.inj (hvalue.symm.trans hcode)
    exact hlater hset
  · rintro ⟨headers, pairs, params, value, hreq, hparams, hgrant, hvalue, rfl⟩
    obtain ⟨tokens, h⟩ := hanswer hreq
    obtain ⟨raw, hraw, hset⟩ := (h params hparams).2 hgrant
    obtain rfl := Option.some.inj (hvalue.symm.trans hraw)
    exact hlater hset

/-- Of the requests that present one code, or one token, at most one is answered with tokens. -/
theorem Run.exchanged_once (run : Run st es db)
    (hrun : (serveTogether st d req db).run schedule = some m) (hash : String) {i j : ι}
    (hi : Succeeds m i) (hj : Succeeds m j) :
    (Exchanges st (req i) "authorization_code" "code" hash →
      Exchanges st (req j) "authorization_code" "code" hash → ¬CodeUsed hash db ∧ i = j) ∧
    (Exchanges st (req i) "refresh_token" "refresh_token" hash →
      Exchanges st (req j) "refresh_token" "refresh_token" hash → ¬TokenSpent hash db ∧ i = j) := by
  have hhistory := (run.ok hrun).history
  constructor
  · intro hcode hcode'
    exact hhistory.set_once (codeUsed_kept hash) ((run.setBy hrun hi).1 hcode)
      ((run.setBy hrun hj).1 hcode')
  · intro htoken htoken'
    exact hhistory.set_once (tokenSpent_kept hash) ((run.setBy hrun hi).2 htoken)
      ((run.setBy hrun hj).2 htoken')

/-- **No double redemption and no fork.**  Whatever requests run at the same time, however their
statements interleave and fail: of the requests that present one code, or one refresh token, at most
one is answered with tokens, and none if it had been exchanged before; the tokens of a family always
have one head, and no token is the successor of two. -/
theorem token_races (run : Run st es db) (hd : FreshTogether es d)
    (hrun : (serveTogether st d req db).run schedule = some m) :
    (∀ hash i j, Exchanges st (req i) "authorization_code" "code" hash →
      Exchanges st (req j) "authorization_code" "code" hash → Succeeds m i → Succeeds m j →
        i = j ∧ ¬CodeUsed hash db) ∧
    (∀ hash i j, Exchanges st (req i) "refresh_token" "refresh_token" hash →
      Exchanges st (req j) "refresh_token" "refresh_token" hash → Succeeds m i → Succeeds m j →
        i = j ∧ ¬TokenSpent hash db) ∧
    (∀ t ∈ m.world.db .refreshTokens, ∃! u, u ∈ m.world.db .refreshTokens ∧
      RefreshToken.familyId u = RefreshToken.familyId t ∧ RefreshToken.rotatedToId u = none) ∧
    ∀ t ∈ m.world.db .refreshTokens, ∀ u ∈ m.world.db .refreshTokens, ∀ next,
      RefreshToken.rotatedToId t = some next → RefreshToken.rotatedToId u = some next → t = u := by
  have hok := run.ok hrun
  have hwoven := run.woven hd hok.history
  have hdistinct := hok.locking.distinct
  refine ⟨fun hash i j hi hj hsi hsj => ?_, fun hash i j hi hj hsi hsj => ?_,
    fun t ht => hwoven.existsUnique_head hdistinct ht,
    fun t ht u hu next => hwoven.next_inj hdistinct ht hu⟩
  · exact ((run.exchanged_once hrun hash hsi hsj).1 hi hj).symm
  · exact ((run.exchanged_once hrun hash hsi hsj).2 hi hj).symm

/-- Nothing is exchanged twice, and no family is forked on the way. -/
structure RedeemedOnce (st : AppState) (db : Db) (req : ι → Request)
    (m : Machine ι Sharp Empty Response) : Prop where
  /-- At most one request is answered with tokens for a code, and none for a used one. -/
  codes : ∀ hash,
    {i | Exchanges st (req i) "authorization_code" "code" hash ∧ Succeeds m i}.Subsingleton ∧
      (CodeUsed hash db → ∀ i, Exchanges st (req i) "authorization_code" "code" hash → ¬Succeeds m i)
  /-- At most one request is answered with tokens for a refresh token, and none for a rotated or revoked
  one. -/
  tokens : ∀ hash,
    {i | Exchanges st (req i) "refresh_token" "refresh_token" hash ∧ Succeeds m i}.Subsingleton ∧
      (TokenSpent hash db → ∀ i, Exchanges st (req i) "refresh_token" "refresh_token" hash → ¬Succeeds m i)
  /-- Whatever has been committed so far. -/
  unforked : ∀ earlier, earlier <:+ m.world.trace → Unforked (Db.refreshTokens (replay db earlier))

/-- **One token response for a code or a token, and one head of a family, over a whole run.**  Any number
of requests run at the same time, and their statements interleave and fail. -/
theorem redeemed_once (run : Run st es db) (hd : FreshTogether es d)
    (hrun : (serveTogether st d req db).run schedule = some m) : RedeemedOnce st db req m where
  codes hash := by
    constructor
    · rintro i ⟨hi, hsi⟩ j ⟨hj, hsj⟩
      exact ((run.exchanged_once hrun hash hsi hsj).1 hi hj).2
    · exact fun hused i hi hsi => ((run.exchanged_once hrun hash hsi hsi).1 hi hi).1 hused
  tokens hash := by
    constructor
    · rintro i ⟨hi, hsi⟩ j ⟨hj, hsj⟩
      exact ((run.exchanged_once hrun hash hsi hsj).2 hi hj).2
    · exact fun hspent i hi hsi => ((run.exchanged_once hrun hash hsi hsi).2 hi hi).1 hspent
  unforked earlier hsuffix := by
    have hok := run.ok hrun
    obtain ⟨later, htrace⟩ := hsuffix
    have hearlier := run.woven hd (hok.history.split later earlier htrace.symm).1
    exact hearlier.unforked (hok.history.distinct hok.locking.distinct earlier ⟨later, htrace⟩)

end runs

/-! ### Two requests with one code -/

namespace Sample

/-- The draws of requests that run together after the first `n`. -/
theorem Served.together {n k : ℕ} {es : List Event} {db : Db} (h : Served n es db) (hk : n + k < 80) :
    FreshTogether es fun i : Fin k => draws (n + i) where
  fresh i := by
    have hlater : Served (n + i) es db :=
      ⟨h.run, fun e he => by
        obtain ⟨m, hm, hd⟩ := h.draws_lt e he
        exact ⟨m, by omega, hd⟩⟩
    exact hlater.fresh (by omega)
  apart i j hij a b heq := by
    have hn : n + (i : ℕ) = n + j := (uuid_inj (by omega) (by omega) heq).1
    exact hij (Fin.ext (by omega))

/-- The answer of a program that has ended. -/
def answer? {ε α : Type} (p : Handler Sharp ε α) : Option α :=
  match p with
  | .ret r => some r
  | _ => none

theorem answer?_eq_some {ε α : Type} {p : Handler Sharp ε α} {r : α} (h : answer? p = some r) :
    p = .ret r := by
  cases p with
  | ret r' =>
      cases h
      rfl
  | fail e => cases h
  | call o k => cases h

/-- Steps that do not fail, of one thread or the other. -/
def turns (l : List Bool) : List (Fin 2 × Bool) := l.map fun b => (if b then 1 else 0, false)

/-- The run has reached a state, and the request has been answered with tokens. -/
theorem exists_succeeds {o : Option (Machine (Fin 2) Sharp Empty Response)} {i : Fin 2}
    (h : (o.bind fun m => (answer? (m.threads i).prog).bind tokens?).isSome = true) :
    ∃ m, o = some m ∧ Succeeds m i := by
  obtain ⟨tokens, h⟩ := Option.isSome_iff_exists.1 h
  obtain ⟨m, hrun, h⟩ := Option.bind_eq_some_iff.1 h
  obtain ⟨r, hr, htokens⟩ := Option.bind_eq_some_iff.1 h
  exact ⟨m, hrun, r, tokens, answer?_eq_some hr, tokens?_eq_some htokens⟩

/-- Both requests start to claim the code before one has it. -/
def interleaved : List (Fin 2 × Bool) :=
  turns [false, true, false, true, false, true, false, false, false, false, true, true, true, true,
    true, true, true]

theorem served_consented : Served 5 (event 4 (.consent signedInBrowser consentForm) registered :: registrations)
    issued := served_registered.step (by decide) serve_consent

theorem run_interleaved : (((serveTogether state (fun i : Fin 2 => draws (5 + i))
    (fun _ => exchange clientA.clientId) issued).run interleaved).bind fun m =>
      (answer? (m.threads 0).prog).bind tokens?).isSome = true := by
  decide +kernel

/-- Two requests with one code. -/
theorem token_races_interleaved : ∃ m, (serveTogether state (fun i : Fin 2 => draws (5 + i))
    (fun _ => exchange clientA.clientId) issued).run interleaved = some m ∧ Succeeds m 0 ∧
    (∀ hash i j, Exchanges state (exchange clientA.clientId) "authorization_code" "code" hash →
      Exchanges state (exchange clientA.clientId) "authorization_code" "code" hash → Succeeds m i →
        Succeeds m j → i = j ∧ ¬CodeUsed hash issued) ∧
    (∀ hash i j, Exchanges state (exchange clientA.clientId) "refresh_token" "refresh_token" hash →
      Exchanges state (exchange clientA.clientId) "refresh_token" "refresh_token" hash → Succeeds m i →
        Succeeds m j → i = j ∧ ¬TokenSpent hash issued) ∧
    (∀ t ∈ m.world.db .refreshTokens, ∃! u, u ∈ m.world.db .refreshTokens ∧
      RefreshToken.familyId u = RefreshToken.familyId t ∧ RefreshToken.rotatedToId u = none) ∧
    ∀ t ∈ m.world.db .refreshTokens, ∀ u ∈ m.world.db .refreshTokens, ∀ next,
      RefreshToken.rotatedToId t = some next → RefreshToken.rotatedToId u = some next → t = u := by
  obtain ⟨m, hrun, hsucceeds⟩ := exists_succeeds run_interleaved
  exact ⟨m, hrun, hsucceeds, token_races served_consented.run (served_consented.together (by decide)) hrun⟩

/-- The first client uses its refresh token. -/
def refreshing : Request := .token noHeaders (some [("grant_type", "refresh_token"),
  ("client_id", clientA.clientId), ("refresh_token", generateToken ((draws 5).secret 0))])

/-- The second request waits for the first one, which fails after it has inserted the successor. -/
def aborting : List (Fin 2 × Bool) :=
  turns [false, false, false, false, false, false, true, true, true] ++ (0, true) ::
    turns [true, true, true, true, true, true, true]

theorem run_aborting : (((serveTogether state (fun i : Fin 2 => draws (6 + i)) (fun _ => refreshing)
    exchanged).run aborting).bind fun m => (answer? (m.threads 1).prog).bind tokens?).isSome = true := by
  decide +kernel

/-- Two requests with one refresh token, the first of which is aborted. -/
theorem redeemed_once_aborting : ∃ m, (serveTogether state (fun i : Fin 2 => draws (6 + i))
    (fun _ => refreshing) exchanged).run aborting = some m ∧ Succeeds m 1 ∧
    RedeemedOnce state exchanged (fun _ => refreshing) m := by
  obtain ⟨m, hrun, hsucceeds⟩ := exists_succeeds run_aborting
  exact ⟨m, hrun, hsucceeds,
    redeemed_once served_exchanged.run (served_exchanged.together (by decide)) hrun⟩

end Sample

end SharpOauth
