import SharpOauth.RelyGuarantee

/-! # Rules for safe programs

One rule for each way to build a program (`safe_bind`, `safe_attempt`, …) and one for each kind of
statement (`Starts.select`, `Starts.insert`, `Starts.scan`).  A statement that takes its rows one by
one has a loop invariant, which speaks about the rows it has still to take and must survive what the
others do in the meantime.

Programs whose every write is of a permitted kind are safe as a whole (`safe_of_only`). -/

namespace SharpOauth

variable {S : Schema} {ε ε' α β γ ι : Type}

namespace Contract

variable {C : Contract ι S} {i : ι} {tx : Tx S} {w : World ι S}

/-! ### Consequence -/

section consequence

variable {P P' : Tx S → World ι S → Prop}

theorem Commits.mono (h : C.Commits i tx w P) (hP : ∀ tx w, P tx w → P' tx w) :
    C.Commits i tx w P' := ⟨h.1, hP _ _ h.2⟩

theorem Answers.mono (h : C.Answers i tx w P) (hP : ∀ tx w, P tx w → P' tx w) :
    C.Answers i tx w P' := by
  unfold Answers at h ⊢
  split_ifs at h ⊢ with hexplicit
  · exact hP _ _ h
  · exact Commits.mono h hP

theorem Scans.mono {c : RowScan S.Row γ} {snapshot : S.Store} {failed failed' : World ι S → Prop}
    {R R' : S.Store → Tx S → World ι S → Prop} (hfailed : ∀ w, failed w → failed' w)
    (hR : ∀ found tx w, R found tx w → R' found tx w) : ∀ {todo : List S.Key} {found : S.Store}
      {tx : Tx S} {w : World ι S}, C.Scans i c snapshot failed R todo found tx w →
        C.Scans i c snapshot failed' R' todo found tx w := by
  intro todo
  induction todo with
  | nil => exact fun h w' henv => ⟨hfailed w' (h w' henv).1, hR _ _ w' (h w' henv).2⟩
  | cons key rest ih => exact fun h w' henv => ⟨hfailed w' (h w' henv).1, ih (h w' henv).2⟩

theorem Inserts.mono {t : S.Table} {r : S.Row t} {R R' : Except SqlError Unit → Tx S → World ι S → Prop}
    (h : C.Inserts i tx w t r R) (hR : ∀ a tx w, R a tx w → R' a tx w) :
    C.Inserts i tx w t r R' :=
  ⟨fun hclash => hR _ _ _ (h.1 hclash), fun hclash => (h.2 hclash).mono (hR _)⟩

theorem Starts.mono {q : S.Stmt} {R R' : Except SqlError (S.Ret q) → Tx S → World ι S → Prop}
    (h : C.Starts i q tx w R) (hR : ∀ a tx w, R a tx w → R' a tx w) : C.Starts i q tx w R' := by
  unfold Starts at h ⊢
  cases hq : S.sem q with
  | select f =>
      rw [hq] at h
      exact hR _ _ _ h
  | insert t r out =>
      rw [hq] at h
      exact Inserts.mono h fun a => hR _
  | upsert t r hit f out =>
      rw [hq] at h
      dsimp only at h ⊢
      cases hx : (tx.view w.db t).find? hit with
      | none =>
          rw [hx] at h
          exact Inserts.mono h fun a => hR _
      | some x =>
          rw [hx] at h
          exact Answers.mono h (hR _)
  | lock t p out =>
      rw [hq] at h
      exact Scans.mono (fun w => hR _ _ w) (fun found tx w h => h.mono (hR _)) h
  | update t p f out =>
      rw [hq] at h
      exact Scans.mono (fun w => hR _ _ w) (fun found tx w h => h.mono (hR _)) h
  | delete d out => trivial

/-- **Consequence.** -/
theorem safe_mono {Q Q' : Except ε α → Tx S → World ι S → Prop}
    (hQ : ∀ r tx w, Q r tx w → Q' r tx w) (p : Handler S ε α) :
    ∀ {tx : Tx S} {w : World ι S}, C.Safe i Q p tx w → C.Safe i Q' p tx w := by
  induction p with
  | ret a => exact fun h => hQ _ _ _ h
  | fail e => exact fun h => hQ _ _ _ h
  | call o k ih =>
      intro tx w h
      cases o with
      | begin => exact fun w' henv => ⟨ih _ (h w' henv).1, ih _ (h w' henv).2⟩
      | commit => exact fun w' henv => ⟨ih _ (h w' henv).1, (h w' henv).2.mono fun _ _ => ih _⟩
      | sql q => exact fun w' henv => ⟨ih _ (h w' henv).1, (h w' henv).2.mono fun r _ _ => ih r⟩

end consequence

/-! ### Programs -/

section programs

variable {Q : Except ε β → Tx S → World ι S → Prop}

/-- The rest of a sequence. -/
def Next (C : Contract ι S) (i : ι) (Q : Except ε β → Tx S → World ι S → Prop)
    (f : α → Handler S ε β) : Except ε α → Tx S → World ι S → Prop
  | .ok a => C.Safe i Q (f a)
  | .error e => Q (.error e)

theorem safe_bind (p : Handler S ε α) (f : α → Handler S ε β) :
    C.Safe i Q (p.bind f) = C.Safe i (C.Next i Q f) p := by
  induction p with
  | ret a => rfl
  | fail e => rfl
  | call o k ih =>
      funext tx w
      cases o with
      | begin => simp only [Prog.call_bind, Safe, ih]
      | commit => simp only [Prog.call_bind, Safe, ih]
      | sql q => simp only [Prog.call_bind, Safe, ih]

theorem safe_lift [Into ε ε'] {Q : Except ε' β → Tx S → World ι S → Prop} (p : Handler S ε β) :
    C.Safe i Q (p.lift : Handler S ε' β) = C.Safe i (fun r => Q (r.mapError Into.into)) p := by
  induction p with
  | ret a => rfl
  | fail e => rfl
  | call o k ih =>
      funext tx w
      cases o with
      | begin => simp only [Prog.lift, Safe, ih]
      | commit => simp only [Prog.lift, Safe, ih]
      | sql q => simp only [Prog.lift, Safe, ih]

theorem safe_attempt {Q : Except ε' (Except ε α) → Tx S → World ι S → Prop} (p : Handler S ε α) :
    C.Safe i Q (p.attempt : Handler S ε' (Except ε α)) = C.Safe i (fun r => Q (.ok r)) p := by
  induction p with
  | ret a => rfl
  | fail e => rfl
  | call o k ih =>
      funext tx w
      cases o with
      | begin => simp only [Prog.attempt, Safe, ih]
      | commit => simp only [Prog.attempt, Safe, ih]
      | sql q => simp only [Prog.attempt, Safe, ih]

theorem safe_ofExcept [Into ε' ε] {x : Except ε' α} {f : α → Handler S ε β}
    (herror : ∀ e, x = .error e → Q (.error (Into.into e)) tx w)
    (h : ∀ a, x = .ok a → C.Safe i Q (f a) tx w) : C.Safe i Q ((Prog.ofExcept x).bind f) tx w := by
  cases x with
  | ok a => exact h a rfl
  | error e => exact herror e rfl

theorem safe_okOr {o : Option α} {e : ε} {f : α → Handler S ε β} (herror : o = none → Q (.error e) tx w)
    (h : ∀ a, o = some a → C.Safe i Q (f a) tx w) : C.Safe i Q ((Prog.okOr o e).bind f) tx w := by
  cases o with
  | some a => exact h a rfl
  | none => exact herror rfl

variable [Into SqlError ε]

/-- The program may end with any error of the database. -/
def Tolerates (Q : Except ε β → Tx S → World ι S → Prop) : Prop :=
  ∀ (e : SqlError) tx w, Q (.error (Into.into e)) tx w

theorem safe_begin (hQ : Tolerates Q) {f : Unit → Handler S ε β}
    (h : ∀ w', C.Env i tx w w' → C.Safe i Q (f ()) { explicit := true } w') :
    C.Safe i Q (Handler.begin.bind f) tx w := fun w' henv => ⟨hQ .failed _ _, h w' henv⟩

theorem safe_commit (hQ : Tolerates Q) {f : Unit → Handler S ε β}
    (h : ∀ w', C.Env i tx w w' → C.Commits i tx w' (C.Safe i Q (f ()))) :
    C.Safe i Q (Handler.commit.bind f) tx w := fun w' henv => ⟨hQ .failed _ _, h w' henv⟩

/-- The rest of a program after a statement. -/
def Resumes (C : Contract ι S) (i : ι) (Q : Except ε β → Tx S → World ι S → Prop) {q : S.Stmt}
    (f : S.Ret q → Handler S ε β) (r : Except SqlError (S.Ret q)) (tx : Tx S) (w : World ι S) : Prop :=
  C.Safe i Q ((Prog.ofExcept r).bind f) tx w

theorem safe_query (hQ : Tolerates Q) {q : S.Stmt} {f : S.Ret q → Handler S ε β}
    (h : ∀ w', C.Env i tx w w' → C.Starts i q tx w' (C.Resumes i Q f)) :
    C.Safe i Q ((Handler.query q).bind f) tx w := fun w' henv => ⟨hQ .failed _ _, h w' henv⟩

theorem resumes_error (hQ : Tolerates Q) {q : S.Stmt} {f : S.Ret q → Handler S ε β} {e : SqlError} :
    C.Resumes i Q f (.error e) tx w := hQ e tx w

end programs

/-! ### Statements -/

theorem Answers.auto {P : Tx S → World ι S → Prop} (hexplicit : tx.explicit = false)
    (h : C.Commits i tx w P) : C.Answers i tx w P := by
  unfold Answers
  rwa [if_neg (by simp [hexplicit])]

theorem Answers.explicit {P : Tx S → World ι S → Prop} (hexplicit : tx.explicit = true)
    (h : P tx w) : C.Answers i tx w P := by
  unfold Answers
  rwa [if_pos hexplicit]

section statements

variable {q : S.Stmt} {P : Except SqlError (S.Ret q) → Tx S → World ι S → Prop}

theorem Starts.select {f : S.Store → S.Ret q} (hq : S.sem q = .select f)
    (h : P (.ok (f (tx.view w.db))) tx (w.note i q (tx.view w.db))) : C.Starts i q tx w P := by
  unfold Starts
  rw [hq]
  exact h

theorem Starts.insert {t : S.Table} {r : S.Row t} {out : S.Ret q} (hq : S.sem q = .insert t r out)
    (hduplicate : P (.error .duplicate) {} (w.note i q (tx.view w.db)))
    (h : (∀ x ∈ tx.view w.db t, S.clash t r x = false) →
      C.Answers i (tx.write ⟨t, r⟩) (w.note i q (tx.view w.db)) (P (.ok out))) :
    C.Starts i q tx w P := by
  unfold Starts
  rw [hq]
  refine ⟨fun _ => hduplicate, fun hclash => h fun x hx => ?_⟩
  by_contra hx'
  exact hclash (List.any_eq_true.2 ⟨x, hx, by simpa using hx'⟩)

theorem Starts.upsert {t : S.Table} {r : S.Row t} {hit : S.Row t → Bool} {f : S.Row t → S.Row t}
    {out : S.Ret q} (hq : S.sem q = .upsert t r hit f out)
    (hduplicate : P (.error .duplicate) {} (w.note i q (tx.view w.db)))
    (hnone : (∀ x ∈ tx.view w.db t, hit x = false) → (∀ x ∈ tx.view w.db t, S.clash t r x = false) →
      C.Answers i (tx.write ⟨t, r⟩) (w.note i q (tx.view w.db)) (P (.ok out)))
    (hsome : ∀ x ∈ tx.view w.db t, hit x = true →
      C.Answers i (tx.write ⟨t, f x⟩) (w.note i q (tx.view w.db)) (P (.ok out))) :
    C.Starts i q tx w P := by
  unfold Starts
  rw [hq]
  dsimp only
  cases hx : (tx.view w.db t).find? hit with
  | none =>
      refine ⟨fun _ => hduplicate, fun hclash => hnone ?_ fun x hx => ?_⟩
      · simpa using List.find?_eq_none.1 hx
      · by_contra hx'
        exact hclash (List.any_eq_true.2 ⟨x, hx, by simpa using hx'⟩)
  | some x => exact hsome x (List.mem_of_find?_eq_some hx) (List.find?_some hx)

/-- A transaction sees at most one row with a key. -/
theorem eq_of_key_view (hdb : S.Distinct w.db) {t : S.Table} {r r' : S.Row t}
    (hr : r ∈ tx.view w.db t) (hr' : r' ∈ tx.view w.db t) (hkey : S.key t r = S.key t r') : r = r' :=
  Locking.eq_of_key (Locking.keyed_install tx.log hdb.keys t) hr hr' hkey

/-- **Statements that take rows.**  `J todo found` holds between two rows. -/
theorem Starts.scan {c : RowScan S.Row (S.Ret q)} (hq : (S.sem q).rowScan = some c)
    (J : List S.Key → List (S.Row c.t) → Tx S → World ι S → Prop)
    (hinit : J (((tx.view w.db c.t).filter (c.p (tx.view w.db))).map (S.key c.t)) [] tx
      (w.note i q (tx.view w.db)))
    (henv : ∀ todo found tx w w', J todo found tx w → C.Env i tx w w' → J todo found tx w')
    (hskip : ∀ key rest found tx' w', S.Distinct w'.db → J (key :: rest) found tx' w' →
      (∀ r ∈ tx'.view w'.db c.t, S.key c.t r = key → c.p (tx.view w.db) r = false) →
      J rest found tx' w')
    (htake : ∀ r rest found tx' w', S.Distinct w'.db → J (S.key c.t r :: rest) found tx' w' →
      r ∈ tx'.view w'.db c.t → c.p (tx.view w.db) r = true →
      J rest (found ++ [(c.take tx' r).2]) (c.take tx' r).1 w')
    (hfail : ∀ w, P (.error .failed) {} w)
    (hend : ∀ found tx w, S.Distinct w.db → J [] found tx w →
      C.Answers i tx w (P (.ok (c.out found)))) : C.Starts i q tx w P := by
  have hscans : ∀ (todo : List S.Key) (found : S.Store) (tx' : Tx S) (w' : World ι S),
      J todo (found c.t) tx' w' → C.Scans i c (tx.view w.db) (fun w => P (.error .failed) {} w)
        (fun found tx w => C.Answers i tx w (P (.ok (c.out (found c.t))))) todo found tx' w' := by
    intro todo
    induction todo with
    | nil =>
        intro found tx' w' hJ w'' h
        exact ⟨hfail w'', hend _ tx' w'' h.distinct (henv _ _ _ _ _ hJ h)⟩
    | cons key rest ih =>
        intro found tx' w' hJ w'' h
        refine ⟨hfail w'', ih _ _ _ ?_⟩
        have hJ := henv _ _ _ _ _ hJ h
        unfold RowScan.visit
        cases hfind : (tx'.view w''.db c.t).find? (fun r => S.key c.t r = key) with
        | none =>
            refine hskip key rest _ tx' w'' h.distinct hJ fun r hr hkey => ?_
            exact absurd hkey (by simpa using List.find?_eq_none.1 hfind r hr)
        | some r =>
            have hr := List.mem_of_find?_eq_some hfind
            obtain rfl : S.key c.t r = key := by simpa using List.find?_some hfind
            dsimp only
            split_ifs with hp
            · dsimp only
              rw [Store.set_same]
              exact htake r rest _ tx' w'' h.distinct hJ hr hp
            · refine hskip _ rest _ tx' w'' h.distinct hJ fun r' hr' hkey => ?_
              rw [eq_of_key_view h.distinct hr' hr hkey]
              simpa using hp
  have hstart := hscans _ (c.start (tx.view w.db)).found tx _ hinit
  unfold Starts
  generalize S.sem q = sem at hq
  cases sem with
  | lock t p out =>
      obtain rfl := Option.some.inj hq
      exact hstart
  | update t p f out =>
      obtain rfl := Option.some.inj hq
      exact hstart
  | _ => cases hq

/-- A search by a unique column finds at most one row. -/
theorem length_filter_le_one {α : Type} {rows : List α} {p : α → Bool} (h : rows.Nodup)
    (hp : ∀ x ∈ rows, ∀ y ∈ rows, p x = true → p y = true → x = y) : (rows.filter p).length ≤ 1 := by
  have hnodup := h.filter p
  have heq : ∀ x ∈ rows.filter p, ∀ y ∈ rows.filter p, x = y := by
    intro x hx y hy
    rw [List.mem_filter] at hx hy
    exact hp x hx.1 y hy.1 hx.2 hy.2
  generalize rows.filter p = l at hnodup heq
  cases l with
  | nil => simp
  | cons x rest =>
      cases rest with
      | nil => simp
      | cons y rest =>
          obtain rfl := heq x (by simp) y (by simp)
          simp at hnodup

/-- A transaction sees at most one row with the value of a unique column. -/
theorem search_le_one (hdb : S.Distinct w.db) (htx : tx.log = []) {t : S.Table} {p : S.Row t → Bool}
    (hp : ∀ x y, p x = true → p y = true → S.clash t x y = true) :
    ((tx.view w.db t).filter p).length ≤ 1 := by
  rw [Tx.view, htx, install_nil]
  exact length_filter_le_one (hdb.keys t).of_map fun x hx y hy hpx hpy =>
    hdb.rows t x y hx hy (hp x y hpx hpy)

/-- A search for one row: it is still to come, or it has changed in time, or it is taken. -/
inductive Search (C : Contract ι S) (i : ι) {γ : Type} (c : RowScan S.Row γ) (s : S.Store) (tx : Tx S)
    (w : World ι S) : List S.Key → List (S.Row c.t) → Tx S → World ι S → Prop where
  | searching (todo : List S.Key) (w' : World ι S) (hone : todo.length ≤ 1) (henv : C.Env i tx w w')
      (hseen : ∀ x ∈ s c.t, c.p s x = true → S.key c.t x ∈ todo ∨ ∃ w₁, C.Env i tx w w₁ ∧
        ∀ r ∈ tx.view w₁.db c.t, S.key c.t r = S.key c.t x → c.p s r = false) :
      Search C i c s tx w todo [] tx w'
  | taken (r : S.Row c.t) (w₁ w' : World ι S) (henv : C.Env i tx w w₁) (hr : r ∈ tx.view w₁.db c.t)
      (hp : c.p s r = true) (henv' : C.Env i (c.take tx r).1 w₁ w') :
      Search C i c s tx w [] [(c.take tx r).2] (c.take tx r).1 w'

/-- **Statements that take one row**, or find none: then the row that was there has changed in time. -/
theorem Starts.scanOne (hdb : S.Distinct w.db) {c : RowScan S.Row (S.Ret q)}
    (hq : (S.sem q).rowScan = some c)
    (hone : ((tx.view w.db c.t).filter (c.p (tx.view w.db))).length ≤ 1)
    (hfail : ∀ w, P (.error .failed) {} w)
    (hnone : ∀ w', (∀ x ∈ tx.view w.db c.t, c.p (tx.view w.db) x = true → ∃ w₁,
        C.Env i tx (w.note i q (tx.view w.db)) w₁ ∧
          ∀ r ∈ tx.view w₁.db c.t, S.key c.t r = S.key c.t x → c.p (tx.view w.db) r = false) →
      C.Answers i tx w' (P (.ok (c.out []))))
    (hsome : ∀ r w₁ w', C.Env i tx (w.note i q (tx.view w.db)) w₁ → r ∈ tx.view w₁.db c.t →
      c.p (tx.view w.db) r = true → C.Env i (c.take tx r).1 w₁ w' →
      C.Answers i (c.take tx r).1 w' (P (.ok (c.out [(c.take tx r).2])))) :
    C.Starts i q tx w P := by
  refine .scan hq (C.Search i c (tx.view w.db) tx (w.note i q (tx.view w.db))) ?_ ?_ ?_ ?_ hfail ?_
  · refine .searching _ _ (by rwa [List.length_map]) (.refl hdb) fun x hx hp => .inl ?_
    exact List.mem_map_of_mem (List.mem_filter.2 ⟨hx, hp⟩)
  · intro todo found tx' w' w'' h henv
    cases h with
    | searching _ _ hone henv' hseen => exact .searching todo w'' hone (henv'.trans henv) hseen
    | taken r w₁ _ henv₁ hr hp henv' => exact .taken r w₁ w'' henv₁ hr hp (henv'.trans henv)
  · intro key rest found tx' w' _ h hskip
    cases h with
    | searching _ _ hone henv hseen =>
        refine .searching rest w' (by simp at hone; simp [hone]) henv fun x hx hp => ?_
        rcases hseen x hx hp with hkey | hw
        · rcases List.mem_cons.1 hkey with rfl | hkey
          · exact .inr ⟨w', henv, hskip⟩
          · exact .inl hkey
        · exact .inr hw
  · intro r rest found tx' w' hdb' h hr hp
    cases h with
    | searching _ _ hone henv hseen =>
        obtain rfl : rest = [] := by simpa using hone
        exact .taken r w' w' henv hr hp (.refl hdb')
  · intro found tx' w' _ h
    cases h with
    | searching _ _ hone henv hseen =>
        refine hnone w' fun x hx hp => ?_
        rcases hseen x hx hp with hkey | hw
        · exact absurd hkey List.not_mem_nil
        · exact hw
    | taken r w₁ _ henv hr hp henv' => exact hsome r w₁ w' henv hr hp henv'

end statements

end Contract

/-! ### Frames -/

/-- What the statement makes of the rows it finds. -/
inductive Sql.Changes {γ : Type} : Version S → Sql S.Row γ → Prop where
  | upsert (t : S.Table) (r : S.Row t) (hit : S.Row t → Bool) (f : S.Row t → S.Row t) (out : γ)
      (x : S.Row t) : Changes ⟨t, f x⟩ (.upsert t r hit f out)
  | update (t : S.Table) (p : S.Store → S.Row t → Bool) (f : S.Row t → S.Row t)
      (out : List (S.Row t) → γ) (x : S.Row t) : Changes ⟨t, f x⟩ (.update t p f out)

/-- Versions that may be written at any time: a commit may consist of them, and they stay so while
their row is locked. -/
structure Contract.Permits (C : Contract ι S) (i : ι) (Quiet : S.Store → Version S → Prop) : Prop where
  guar : ∀ w log, (∀ v ∈ log, Quiet w.db v) → C.guar i w log
  stable : ∀ db db' v, (∀ r, S.key v.table r = S.key v.table v.row →
    (r ∈ db' v.table ↔ r ∈ db v.table)) → Quiet db v → Quiet db' v

/-- A statement that writes such versions only. -/
structure Schema.Writes (S : Schema) (Quiet : S.Store → Version S → Prop) (q : S.Stmt) : Prop where
  inserts : ∀ s t r out, (S.sem q).Inserts s t r out → ∀ db,
    (∀ x ∈ db t, S.key t x ≠ S.key t r) → Quiet db ⟨t, r⟩
  changes : ∀ v, (S.sem q).Changes v → ∀ db, Quiet db v

namespace Contract

variable {C : Contract ι S} {i : ι} {tx : Tx S} {w w' : World ι S}
  {Quiet : S.Store → Version S → Prop}

/-- All that the transaction has written is permitted. -/
def Quieted (Quiet : S.Store → Version S → Prop) (tx : Tx S) (w : World ι S) : Prop :=
  ∀ v ∈ tx.log, Quiet w.db v ∧ v.id ∈ tx.locks

theorem Quieted.env (hC : C.Permits i Quiet) (h : Quieted Quiet tx w) (henv : C.Env i tx w w') :
    Quieted Quiet tx w' := by
  intro v hv
  obtain ⟨hquiet, hlock⟩ := h v hv
  refine ⟨hC.stable w.db w'.db v (fun r hkey => ?_) hquiet, hlock⟩
  exact henv.locked v.table r (by rw [hkey]; exact hlock)

theorem Quieted.write (h : Quieted Quiet tx w) {v : Version S} (hv : Quiet w.db v) :
    Quieted Quiet (tx.write v) w := by
  intro u hu
  rcases List.mem_append.1 hu with hu | hu
  · exact ⟨(h u hu).1, List.mem_cons_of_mem _ (h u hu).2⟩
  · obtain rfl := List.mem_singleton.1 hu
    exact ⟨hv, List.mem_cons_self⟩

theorem Quieted.commits (hC : C.Permits i Quiet) (h : Quieted Quiet tx w)
    {P : Tx S → World ι S → Prop} (hP : ∀ tx w, Quieted Quiet tx w → P tx w) :
    C.Commits i tx w P :=
  ⟨hC.guar w tx.log fun v hv => (h v hv).1, hP _ _ fun _ hv => absurd hv List.not_mem_nil⟩

theorem Quieted.answers (hC : C.Permits i Quiet) (h : Quieted Quiet tx w)
    {P : Tx S → World ι S → Prop} (hP : ∀ tx w, Quieted Quiet tx w → P tx w) :
    C.Answers i tx w P := by
  unfold Answers
  split_ifs
  · exact hP tx w h
  · exact h.commits hC hP

/-- What clashes with nothing in sight has a new key. -/
theorem key_ne_of_view (hS : S.Keyed) {t : S.Table} {r : S.Row t}
    (h : ∀ x ∈ tx.view w.db t, S.clash t r x = false) : ∀ x ∈ w.db t, S.key t x ≠ S.key t r := by
  intro x hx hkey
  have hsame : ∀ y ∈ tx.view w.db t, S.key t y ≠ S.key t r := by
    intro y hy hy'
    have hclash := h y hy
    rw [hS.clash_of_key t r y hy'.symm] at hclash
    cases hclash
  by_cases hlog : ∃ v ∈ tx.log, v.id = (t, S.key t x)
  · obtain ⟨⟨t', y⟩, hv, hid⟩ := hlog
    obtain rfl : t' = t := congrArg Prod.fst hid
    obtain ⟨z, hz, hz'⟩ := exists_install (s := w.db) hv
    exact hsame z hz (hz'.trans ((congrArg Prod.snd hid).trans hkey))
  · exact hsame x ((mem_install_of_ne fun v hv hid => hlog ⟨v, hv, hid⟩).2 hx) hkey

theorem Quieted.starts (hS : S.Keyed) (hC : C.Permits i Quiet) {q : S.Stmt} (hq : S.Writes Quiet q)
    (h : Quieted Quiet tx w) {P : Except SqlError (S.Ret q) → Tx S → World ι S → Prop}
    (hP : ∀ a tx w, Quieted Quiet tx w → P a tx w) : C.Starts i q tx w P := by
  have hnone (w : World ι S) : Quieted Quiet {} w := fun v hv => absurd hv List.not_mem_nil
  have hnoted {s : S.Store} : Quieted Quiet tx (w.note i q s) := h
  have hscan (c : RowScan S.Row (S.Ret q)) (hc : (S.sem q).rowScan = some c)
      (hf : ∀ f, c.f = some f → ∀ x, (S.sem q).Changes ⟨c.t, f x⟩) : C.Starts i q tx w P := by
    refine .scan hc (fun _ _ => Quieted Quiet) h (fun _ _ _ _ _ h henv => h.env hC henv)
      (fun _ _ _ _ _ _ h _ => h) (fun r rest found tx' w' _ h hr _ => ?_) (fun w => hP _ _ _ (hnone w))
      fun found tx w _ h => h.answers hC (hP _)
    cases hcf : c.f with
    | none =>
        rw [c.take_of_none hcf]
        exact fun v hv => ⟨(h v hv).1, List.mem_cons_of_mem _ (h v hv).2⟩
    | some f =>
        rw [c.take_of_some hcf]
        exact h.write (hq.changes _ (hf f hcf r) _)
  cases hsem : S.sem q with
  | select f => exact .select hsem (hP _ _ _ hnoted)
  | insert t r out =>
      refine .insert hsem (hP _ _ _ (hnone _)) fun hclash => (hnoted.write ?_).answers hC (hP _)
      exact hq.inserts w.db t r out (hsem ▸ .insert) _ (key_ne_of_view hS hclash)
  | upsert t r hit f out =>
      refine .upsert hsem (hP _ _ _ (hnone _)) (fun hmiss hclash => ?_) fun x hx hhit => ?_
      · refine (hnoted.write ?_).answers hC (hP _)
        refine hq.inserts (tx.view w.db) t r out (hsem ▸ .upsert hit f ?_) _ (key_ne_of_view hS hclash)
        exact List.find?_eq_none.2 fun x hx => by simp [hmiss x hx]
      · exact (hnoted.write (hq.changes _ (hsem ▸ .upsert t r hit f out x) _)).answers hC (hP _)
  | lock t p out => exact hscan ⟨t, p, none, out⟩ (by rw [hsem]; rfl) fun f hf => by cases hf
  | update t p f out =>
      refine hscan ⟨t, p, some f, out⟩ (by rw [hsem]; rfl) fun f' hf x => ?_
      obtain rfl := Option.some.inj hf
      exact hsem ▸ .update t p f out x
  | delete d out =>
      unfold Starts
      rw [hsem]
      trivial

/-- **Frame rule.**  A program is safe when all that it writes is permitted. -/
theorem safe_of_only (hS : S.Keyed) (hC : C.Permits i Quiet) {p : Handler S ε α}
    (hp : p.Only (S.Writes Quiet)) : ∀ {tx : Tx S} {w : World ι S}, Quieted Quiet tx w →
      C.Safe i (fun _ _ _ => True) p tx w := by
  have hnone (w : World ι S) (explicit : Bool) : Quieted Quiet { explicit } w :=
    fun v hv => absurd hv List.not_mem_nil
  induction hp with
  | ret a => exact fun _ => trivial
  | fail e => exact fun _ => trivial
  | call o k ho hk ih =>
      intro tx w h
      cases o with
      | begin => exact fun w' henv => ⟨ih _ (hnone w' false), ih _ (hnone w' true)⟩
      | commit =>
          exact fun w' henv => ⟨ih _ (hnone w' false), (h.env hC henv).commits hC fun _ _ => ih _⟩
      | sql q =>
          refine fun w' henv => ⟨ih _ (hnone w' false), ?_⟩
          exact (h.env hC henv).starts hS hC (ho q rfl) fun a _ _ => ih a

end Contract

end SharpOauth
