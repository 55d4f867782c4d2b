import SharpOauth.ReadCommitted

/-! # What row locks guarantee

In every state that programs reach together (`Machine.run_locking`)

* no two transactions hold one row, and the rows a transaction has written are its own;
* rows that clash, among all that any transaction sees, are versions of one row.  So the unique
  constraints hold among the committed rows (`Locking.distinct`).

A transaction that has written nothing yet sees the committed tables, and committing is nothing but
making the others see what it sees. -/

namespace SharpOauth

variable {S : Schema} {ε α ι : Type}

/-- Two versions of one row: they agree on every constrained column. -/
def Schema.SameRow (S : Schema) (t : S.Table) (x y : S.Row t) : Prop :=
  S.key t x = S.key t y ∧ ∀ z, S.clash t x z = S.clash t y z

/-- An `UPDATE` makes versions of one row. -/
def Sql.KeepsRow {Table : Type} {Row : Table → Type} {β : Type}
    (same : (t : Table) → Row t → Row t → Prop) : Sql Row β → Prop
  | .upsert t _ _ f _ | .update t _ f _ => ∀ x, same t (f x) x
  | .select _ | .lock _ _ _ | .insert _ _ _ | .delete _ _ => True

/-- The key of a row is unique, and no statement changes a constrained column. -/
structure Schema.Keyed (S : Schema) : Prop where
  clash_symm : ∀ t x y, S.clash t x y = S.clash t y x
  clash_of_key : ∀ t x y, S.key t x = S.key t y → S.clash t x y = true
  keepsRow : ∀ q, (S.sem q).KeepsRow S.SameRow

/-- No two rows break a unique constraint. -/
structure Schema.Distinct (S : Schema) (s : S.Store) : Prop where
  keys : ∀ t, ((s t).map (S.key t)).Nodup
  rows : ∀ t (r r' : S.Row t), r ∈ s t → r' ∈ s t → S.clash t r r' = true → r = r'

theorem Schema.SameRow.symm {t : S.Table} {x y : S.Row t} (h : S.SameRow t x y) :
    S.SameRow t y x := ⟨h.1.symm, fun z => (h.2 z).symm⟩

theorem Schema.SameRow.trans {t : S.Table} {x y z : S.Row t} (h : S.SameRow t x y)
    (h' : S.SameRow t y z) : S.SameRow t x z := ⟨h.1.trans h'.1, fun u => (h.2 u).trans (h'.2 u)⟩

/-- A scan makes versions of the rows it takes. -/
theorem Schema.Keyed.sameRow_of_rowScan (hS : S.Keyed) {q : S.Stmt} {c : RowScan S.Row (S.Ret q)}
    (hc : (S.sem q).rowScan = some c) {f : S.Row c.t → S.Row c.t} (hf : c.f = some f) :
    ∀ x, S.SameRow c.t (f x) x := by
  have hrow := hS.keepsRow q
  generalize S.sem q = sem at hc hrow
  cases sem with
  | lock t p out =>
      obtain rfl := Option.some.inj hc
      cases hf
  | update t p f' out =>
      obtain rfl := Option.some.inj hc
      obtain rfl := Option.some.inj hf
      exact hrow
  | _ => cases hc

theorem RowScan.take_of_none {γ : Type} (c : RowScan S.Row γ) (hf : c.f = none) (tx : Tx S)
    (r : S.Row c.t) : c.take tx r = ({ tx with locks := (c.t, S.key c.t r) :: tx.locks }, r) := by
  unfold take
  rw [hf]

theorem RowScan.take_of_some {γ : Type} (c : RowScan S.Row γ) {f : S.Row c.t → S.Row c.t}
    (hf : c.f = some f) (tx : Tx S) (r : S.Row c.t) :
    c.take tx r = (tx.write ⟨c.t, f r⟩, f r) := by
  unfold take
  rw [hf]

/-- The next row is gone or of no interest, or it is taken. -/
theorem RowScan.visit_cases {γ : Type} (c : RowScan S.Row γ) (snapshot : S.Store) (key : S.Key)
    (s : S.Store) (tx : Tx S) (found : S.Store) :
    c.visit snapshot key s tx found = (tx, found) ∨
      ∃ r ∈ s c.t, S.key c.t r = key ∧ c.p snapshot r = true ∧
        c.visit snapshot key s tx found =
          ((c.take tx r).1, found.set c.t (found c.t ++ [(c.take tx r).2])) := by
  unfold visit
  cases hfind : (s c.t).find? (fun r => S.key c.t r = key) with
  | none => exact .inl rfl
  | some r =>
      dsimp only
      split_ifs with hp
      · exact .inr ⟨r, List.mem_of_find?_eq_some hfind, by simpa using List.find?_some hfind, hp, rfl⟩
      · exact .inl rfl

/-- Somebody sees the row. -/
def Sees (db : S.Store) (txs : ι → Tx S) (t : S.Table) (r : S.Row t) : Prop :=
  r ∈ db t ∨ ∃ i, r ∈ (txs i).view db t

/-- The invariant of locks. -/
structure Locking (db : S.Store) (txs : ι → Tx S) : Prop where
  exclusive : ∀ i j x, i ≠ j → x ∈ (txs i).locks → x ∉ (txs j).locks
  owned : ∀ i, ∀ v ∈ (txs i).log, v.id ∈ (txs i).locks
  keyed : ∀ t, ((db t).map (S.key t)).Nodup
  apart : ∀ t (r r' : S.Row t), Sees db txs t r → Sees db txs t r' → S.clash t r r' = true →
    S.SameRow t r r'

namespace Locking

variable {db : S.Store} {txs : ι → Tx S} {i j : ι} {t : S.Table} {r r' : S.Row t}

/-- Nothing has happened yet. -/
theorem start {db : S.Store} (hdb : S.Distinct db) :
    Locking db fun _ : ι => ({} : Tx S) where
  exclusive _ _ _ _ hi := absurd hi List.not_mem_nil
  owned _ _ hv := absurd hv List.not_mem_nil
  keyed := hdb.keys
  apart t r r' hr hr' hclash := by
    have hmem {x : S.Row t} (hx : Sees db (fun _ : ι => ({} : Tx S)) t x) : x ∈ db t :=
      hx.elim id fun ⟨_, hx⟩ => hx
    rw [hdb.rows t r r' (hmem hr) (hmem hr') hclash]
    exact ⟨rfl, fun _ => rfl⟩

/-- A key belongs to one row. -/
theorem eq_of_key {rows : List (S.Row t)} (h : (rows.map (S.key t)).Nodup) (hr : r ∈ rows)
    (hr' : r' ∈ rows) (hkey : S.key t r = S.key t r') : r = r' :=
  List.inj_on_of_nodup_map h hr hr' hkey

/-- **The committed rows meet the unique constraints.** -/
theorem distinct (h : Locking db txs) : S.Distinct db where
  keys := h.keyed
  rows t _ _ hr hr' hclash := eq_of_key (h.keyed t) hr hr' (h.apart t _ _ (.inl hr) (.inl hr') hclash).1

/-- Rows that others hold are not written over. -/
theorem mem_view_of_locked (h : Locking db txs) (hij : i ≠ j)
    (hlock : (t, S.key t r) ∈ (txs j).locks) : r ∈ (txs i).view db t ↔ r ∈ db t :=
  mem_install_of_ne fun v hv hid => h.exclusive i j v.id hij (h.owned i v hv) (hid ▸ hlock)

/-- Keys stay unique when a version is put in place. -/
theorem keyed_put (v : Version S) {s : S.Store} (h : ∀ t, ((s t).map (S.key t)).Nodup) (t : S.Table) :
    ((v.put s t).map (S.key t)).Nodup := by
  by_cases ht : t = v.table
  · subst ht
    rw [Version.put, Store.set_same]
    split_ifs with hany
    · have hkeys : ((s v.table).map fun r => if S.key v.table r = S.key v.table v.row then v.row else r).map
          (S.key v.table) = (s v.table).map (S.key v.table) := by
        rw [List.map_map]
        refine List.map_congr_left fun r _ => ?_
        show S.key v.table (if _ then _ else _) = _
        split_ifs with hkey
        · exact hkey.symm
        · rfl
      rw [hkeys]
      exact h v.table
    · rw [List.map_append, List.map_singleton]
      refine (h v.table).append (List.nodup_singleton _) fun key hkey hkey' => hany ?_
      rw [List.mem_singleton] at hkey'
      obtain ⟨r, hr, rfl⟩ := List.mem_map.1 hkey
      exact List.any_eq_true.2 ⟨r, hr, decide_eq_true hkey'⟩
  · rw [Version.put_ne ht]
    exact h t

theorem keyed_install (log : List (Version S)) : ∀ {s : S.Store},
    (∀ t, ((s t).map (S.key t)).Nodup) → ∀ t, ((install log s t).map (S.key t)).Nodup := by
  induction log with
  | nil => exact fun h => h
  | cons v log ih => exact fun h => ih (keyed_put v h)

/-- Rows that are seen now were seen before, in some version. -/
theorem apart_of_sees (h : Locking db txs) (hS : S.Keyed) {db' : S.Store} {txs' : ι → Tx S}
    (hsees : ∀ t (r : S.Row t), Sees db' txs' t r → ∃ x, Sees db txs t x ∧ S.SameRow t r x) :
    ∀ t (r r' : S.Row t), Sees db' txs' t r → Sees db' txs' t r' → S.clash t r r' = true →
      S.SameRow t r r' := by
  intro t r r' hr hr' hclash
  obtain ⟨x, hx, hrx⟩ := hsees t r hr
  obtain ⟨x', hx', hrx'⟩ := hsees t r' hr'
  refine hrx.trans ((h.apart t x x' hx hx' ?_).trans hrx'.symm)
  rw [← hrx.2, hS.clash_symm, ← hrx'.2, hS.clash_symm]
  exact hclash

/-- What is seen of the committed rows is a version of them. -/
theorem clash_eq_false (h : Locking db txs) (hS : S.Keyed)
    (hview : ∀ x ∈ (txs i).view db t, S.clash t r x = false) {x : S.Row t} (hx : x ∈ db t) :
    S.clash t r x = false := by
  by_cases hlog : ∃ v ∈ (txs i).log, v.id = (t, S.key t x)
  · obtain ⟨v, hv, hid⟩ := hlog
    obtain ⟨t', y⟩ := v
    obtain rfl : t' = t := congrArg Prod.fst hid
    obtain ⟨x', hx', hkey⟩ := exists_install (s := db) hv
    have hkey' : S.key t' x' = S.key t' x := hkey.trans (congrArg Prod.snd hid)
    have hsame := h.apart t' x' x (.inr ⟨i, hx'⟩) (.inl hx) (hS.clash_of_key t' x' x hkey')
    rw [hS.clash_symm, ← hsame.2, hS.clash_symm]
    exact hview x' hx'
  · refine hview x ((mem_install_of_ne fun v hv hid => hlog ⟨v, hv, hid⟩).2 hx)

variable [DecidableEq ι] {tx' : Tx S}

theorem exclusive_update (h : Locking db txs)
    (hlocks : ∀ x ∈ tx'.locks, ∀ j, j ≠ i → x ∉ (txs j).locks) : ∀ j k x, j ≠ k →
      x ∈ (Function.update txs i tx' j).locks → x ∉ (Function.update txs i tx' k).locks := by
  intro j k x hjk hj hk
  by_cases hi : j = i
  · subst hi
    rw [Function.update_self] at hj
    rw [Function.update_of_ne hjk.symm] at hk
    exact hlocks x hj k hjk.symm hk
  · rw [Function.update_of_ne hi] at hj
    by_cases hki : k = i
    · subst hki
      rw [Function.update_self] at hk
      exact hlocks x hk j hjk hj
    · rw [Function.update_of_ne hki] at hk
      exact h.exclusive j k x hjk hj hk

theorem owned_update (h : Locking db txs) (howned : ∀ v ∈ tx'.log, v.id ∈ tx'.locks) :
    ∀ j, ∀ v ∈ (Function.update txs i tx' j).log, v.id ∈ (Function.update txs i tx' j).locks := by
  intro j v hv
  by_cases hi : j = i
  · subst hi
    rw [Function.update_self] at hv ⊢
    exact howned v hv
  · rw [Function.update_of_ne hi] at hv ⊢
    exact h.owned j v hv

theorem sees_update (hr : Sees db (Function.update txs i tx') t r) :
    r ∈ tx'.view db t ∨ Sees db txs t r := by
  rcases hr with hr | ⟨j, hr⟩
  · exact .inr (.inl hr)
  · by_cases hi : j = i
    · subst hi
      rw [Function.update_self] at hr
      exact .inl hr
    · rw [Function.update_of_ne hi] at hr
      exact .inr (.inr ⟨j, hr⟩)

/-- A transaction ends without a trace, or begins. -/
theorem drop (h : Locking db txs) (hS : S.Keyed) (i : ι) (explicit : Bool) :
    Locking db (Function.update txs i { explicit }) where
  exclusive := h.exclusive_update fun _ hx => absurd hx List.not_mem_nil
  owned := h.owned_update fun _ hv => absurd hv List.not_mem_nil
  keyed := h.keyed
  apart := h.apart_of_sees hS fun _ r hr => ⟨r, (sees_update hr).elim .inl id, rfl, fun _ => rfl⟩

/-- A transaction is committed. -/
theorem commit (h : Locking db txs) (hS : S.Keyed) (i : ι) :
    Locking ((txs i).view db) (Function.update txs i {}) where
  exclusive := (h.drop hS i false).exclusive
  owned := (h.drop hS i false).owned
  keyed := keyed_install _ h.keyed
  apart := by
    refine h.apart_of_sees hS fun t r hr => ⟨r, ?_, rfl, fun _ => rfl⟩
    rcases sees_update hr with hr | hr | ⟨j, hr⟩
    · exact .inr ⟨i, hr⟩
    · exact .inr ⟨i, hr⟩
    · rcases mem_install_iff.1 hr with hlog | ⟨hr, -⟩
      · exact .inr ⟨j, mem_install_iff.2 (.inl hlog)⟩
      · exact .inr ⟨i, hr⟩

/-- A row is locked, and perhaps a version of it written. -/
theorem take (h : Locking db txs) (hS : S.Keyed) (hr : r ∈ (txs i).view db t)
    (hfree : ∀ j, j ≠ i → (t, S.key t r) ∉ (txs j).locks)
    (hlocks : tx'.locks = (t, S.key t r) :: (txs i).locks)
    (hlog : tx'.log = (txs i).log ∨
      ∃ r', S.SameRow t r' r ∧ tx'.log = (txs i).log ++ [⟨t, r'⟩]) :
    Locking db (Function.update txs i tx') where
  exclusive := by
    refine h.exclusive_update fun x hx j hj => ?_
    rw [hlocks] at hx
    rcases List.mem_cons.1 hx with rfl | hx
    · exact hfree j hj
    · exact h.exclusive i j x hj.symm hx
  owned := by
    refine h.owned_update fun v hv => ?_
    rw [hlocks]
    rcases hlog with hlog | ⟨r', hsame, hlog⟩
    · rw [hlog] at hv
      exact List.mem_cons_of_mem _ (h.owned i v hv)
    · rw [hlog] at hv
      rcases List.mem_append.1 hv with hv | hv
      · exact List.mem_cons_of_mem _ (h.owned i v hv)
      · obtain rfl := List.mem_singleton.1 hv
        rw [Version.id, hsame.1]
        exact List.mem_cons_self
  keyed := h.keyed
  apart := by
    refine h.apart_of_sees hS fun t' x hx => ?_
    rcases sees_update hx with hx | hx
    · rcases hlog with hlog | ⟨r', hsame, hlog⟩
      · rw [Tx.view, hlog] at hx
        exact ⟨x, .inr ⟨i, hx⟩, rfl, fun _ => rfl⟩
      · rw [Tx.view, hlog, install_concat] at hx
        rcases mem_put_iff.1 hx with heq | ⟨hx, -⟩
        · cases heq
          exact ⟨r, .inr ⟨i, hr⟩, hsame⟩
        · exact ⟨x, .inr ⟨i, hx⟩, rfl, fun _ => rfl⟩
    · exact ⟨x, hx, rfl, fun _ => rfl⟩

/-- A statement takes its next row. -/
theorem visit (h : Locking db txs) (hS : S.Keyed) {q : S.Stmt} {c : RowScan S.Row (S.Ret q)}
    (hc : (S.sem q).rowScan = some c) (snapshot found : S.Store) (key : S.Key)
    (hfree : ∀ j, j ≠ i → (c.t, key) ∉ (txs j).locks) :
    Locking db (Function.update txs i
      (c.visit snapshot key ((txs i).view db) (txs i) found).1) := by
  rcases c.visit_cases snapshot key ((txs i).view db) (txs i) found with hnone | ⟨r, hr, rfl, -, htake⟩
  · rw [hnone, Function.update_eq_self]
    exact h
  · rw [htake]
    cases hf : c.f with
    | none =>
        rw [c.take_of_none hf]
        exact h.take hS hr hfree rfl (.inl rfl)
    | some f =>
        have hsame := hS.sameRow_of_rowScan hc hf r
        rw [c.take_of_some hf]
        refine h.take hS hr hfree ?_ (.inr ⟨f r, hsame, rfl⟩)
        rw [Tx.write, Version.id, hsame.1]

/-- A row is added that clashes with nothing the transaction sees and nothing others have written. -/
theorem insert (h : Locking db txs) (hS : S.Keyed)
    (hview : ∀ x ∈ (txs i).view db t, S.clash t r x = false)
    (hfree : ∀ j, j ≠ i → (t, S.key t r) ∉ (txs j).locks)
    (hothers : ∀ j, j ≠ i → ∀ x ∈ install (txs j).log (fun _ => []) t, S.clash t r x = false) :
    Locking db (Function.update txs i ((txs i).write ⟨t, r⟩)) := by
  have hnew : ∀ x, Sees db txs t x → S.clash t r x = false := by
    rintro x (hx | ⟨j, hx⟩)
    · exact h.clash_eq_false hS hview hx
    · by_cases hj : j = i
      · subst hj
        exact hview x hx
      · rcases mem_install_iff.1 hx with hx | ⟨hx, -⟩
        · exact hothers j hj x hx
        · exact h.clash_eq_false hS hview hx
  have hsees : ∀ t' (x : S.Row t'), Sees db (Function.update txs i ((txs i).write ⟨t, r⟩)) t' x →
      (⟨t, r⟩ : Version S) = ⟨t', x⟩ ∨ Sees db txs t' x := by
    intro t' x hx
    rcases sees_update hx with hx | hx
    · rw [Tx.view, Tx.write, install_concat] at hx
      rcases mem_put_iff.1 hx with heq | ⟨hx, -⟩
      · exact .inl heq
      · exact .inr (.inr ⟨i, hx⟩)
    · exact .inr hx
  refine ⟨?_, ?_, h.keyed, fun t' x x' hx hx' hclash => ?_⟩
  · refine h.exclusive_update fun x hx j hj => ?_
    rcases List.mem_cons.1 hx with rfl | hx
    · exact hfree j hj
    · exact h.exclusive i j x hj.symm hx
  · refine h.owned_update fun v hv => ?_
    rcases List.mem_append.1 hv with hv | hv
    · exact List.mem_cons_of_mem _ (h.owned i v hv)
    · rw [List.mem_singleton.1 hv]
      exact List.mem_cons_self
  · rcases hsees t' x hx with heq | hx
    · cases heq
      rcases hsees t x' hx' with heq' | hx'
      · cases heq'
        exact ⟨rfl, fun _ => rfl⟩
      · rw [hnew x' hx'] at hclash
        cases hclash
    · rcases hsees t' x' hx' with heq' | hx'
      · cases heq'
        rw [hS.clash_symm, hnew x hx] at hclash
        cases hclash
      · exact h.apart t' x x' hx hx' hclash

end Locking

end SharpOauth
