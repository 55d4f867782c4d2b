import SharpOauth.RowLocks

/-! # Rely and guarantee

A program that runs with others meets a `Contract`: it relies on what the others do to the database
between two of its own steps, and guarantees something about every one of its commits.  What it
relies on follows from what the others guarantee, and besides from the locks it holds (`Env`).

`Contract.Safe` is the weakest precondition under a contract, with one rule for each kind of call.
When every program of a machine is safe, each commit of a run is as its program guarantees
(`Contract.History`), and each program ends as it should (`Machine.run_ok`). -/

namespace SharpOauth

variable {S : Schema} {ε ε' α β ι : Type}

structure Contract (ι : Type) (S : Schema) where
  /-- What may happen to the world between two steps of the thread. -/
  rely : ι → World ι S → World ι S → Prop
  /-- What holds whenever the thread commits. -/
  guar : ι → World ι S → List (Version S) → Prop
  refl : ∀ i w, rely i w w
  trans : ∀ i w w' w'', rely i w w' → rely i w' w'' → rely i w w''
  note : ∀ i j, j ≠ i → ∀ w q s, rely i w (w.note j q s)
  commit : ∀ i j, j ≠ i → ∀ w log, S.Distinct w.db → guar j w log →
    rely i w (w.commit j log)

namespace Contract

variable (C : Contract ι S)

/-- What may happen while the thread is in a transaction. -/
structure Env (i : ι) (tx : Tx S) (w w' : World ι S) : Prop where
  rely : C.rely i w w'
  distinct : S.Distinct w'.db
  locked : ∀ t (r : S.Row t), (t, S.key t r) ∈ tx.locks → (r ∈ w'.db t ↔ r ∈ w.db t)

/-- The transaction can be committed, and then `P` holds. -/
def Commits (i : ι) (tx : Tx S) (w : World ι S) (P : Tx S → World ι S → Prop) : Prop :=
  C.guar i w tx.log ∧ P {} (w.commit i tx.log)

/-- A statement has succeeded. -/
def Answers (i : ι) (tx : Tx S) (w : World ι S) (P : Tx S → World ι S → Prop) : Prop :=
  if tx.explicit then P tx w else C.Commits i tx w P

/-- A statement takes its rows, and then `P` holds, or `failed` if it fails on its way. -/
def Scans {γ : Type} (i : ι) (c : RowScan S.Row γ) (snapshot : S.Store)
    (failed : World ι S → Prop) (P : S.Store → Tx S → World ι S → Prop) :
    List S.Key → S.Store → Tx S → World ι S → Prop
  | [], found, tx, w => ∀ w', C.Env i tx w w' → failed w' ∧ P found tx w'
  | key :: rest, found, tx, w => ∀ w', C.Env i tx w w' → failed w' ∧
      Scans i c snapshot failed P rest (c.visit snapshot key (tx.view w'.db) tx found).2
        (c.visit snapshot key (tx.view w'.db) tx found).1 w'

/-- A row is inserted. -/
def Inserts (i : ι) (tx : Tx S) (w : World ι S) (t : S.Table) (r : S.Row t)
    (P : Except SqlError Unit → Tx S → World ι S → Prop) : Prop :=
  ((tx.view w.db t).any (S.clash t r) = true → P (.error .duplicate) {} w) ∧
    (¬(tx.view w.db t).any (S.clash t r) = true →
      C.Answers i (tx.write ⟨t, r⟩) w (P (.ok ())))

/-- A statement starts. -/
def Starts (i : ι) (q : S.Stmt) (tx : Tx S) (w : World ι S)
    (P : Except SqlError (S.Ret q) → Tx S → World ι S → Prop) : Prop :=
  match S.sem q with
  | .select f => P (.ok (f (tx.view w.db))) tx (w.note i q (tx.view w.db))
  | .insert t r out => C.Inserts i tx (w.note i q (tx.view w.db)) t r fun a => P (a.map fun _ => out)
  | .upsert t r hit f out =>
      match (tx.view w.db t).find? hit with
      | none => C.Inserts i tx (w.note i q (tx.view w.db)) t r fun a => P (a.map fun _ => out)
      | some x => C.Answers i (tx.write ⟨t, f x⟩) (w.note i q (tx.view w.db)) (P (.ok out))
  | .lock t p out =>
      let c : RowScan S.Row (S.Ret q) := ⟨t, p, none, out⟩
      C.Scans i c (tx.view w.db) (fun w => P (.error .failed) {} w)
        (fun found tx w => C.Answers i tx w (P (.ok (c.out (found c.t)))))
        (c.start (tx.view w.db)).todo (c.start (tx.view w.db)).found tx (w.note i q (tx.view w.db))
  | .update t p f out =>
      let c : RowScan S.Row (S.Ret q) := ⟨t, p, some f, out⟩
      C.Scans i c (tx.view w.db) (fun w => P (.error .failed) {} w)
        (fun found tx w => C.Answers i tx w (P (.ok (c.out (found c.t)))))
        (c.start (tx.view w.db)).todo (c.start (tx.view w.db)).found tx (w.note i q (tx.view w.db))
  | .delete _ _ => True

/-- The program meets the contract of the `i`-th thread, and ends in `Q`. -/
def Safe (i : ι) (Q : Except ε α → Tx S → World ι S → Prop) :
    Handler S ε α → Tx S → World ι S → Prop
  | .ret a, tx, w => Q (.ok a) tx w
  | .fail e, tx, w => Q (.error e) tx w
  | .call .begin k, tx, w => ∀ w', C.Env i tx w w' →
      Safe i Q (k (.error .failed)) {} w' ∧ Safe i Q (k (.ok ())) { explicit := true } w'
  | .call .commit k, tx, w => ∀ w', C.Env i tx w w' →
      Safe i Q (k (.error .failed)) {} w' ∧
        C.Commits i tx w' fun tx w => Safe i Q (k (.ok ())) tx w
  | .call (.sql q) k, tx, w => ∀ w', C.Env i tx w w' →
      Safe i Q (k (.error .failed)) {} w' ∧
        C.Starts i q tx w' fun r tx w => Safe i Q (k r) tx w

/-- The state of a running thread. -/
inductive ThreadOk (i : ι) (Q : Except ε α → World ι S → Prop) : Thread S ε α → World ι S → Prop where
  | running (p : Handler S ε α) (tx : Tx S) (w w' : World ι S) (henv : C.Env i tx w w')
      (h : C.Safe i (fun r _ => Q r) p tx w) : ThreadOk i Q { prog := p, tx } w'
  | scanning (q : S.Stmt) (k : Except SqlError (S.Ret q) → Handler S ε α)
      (c : RowScan S.Row (S.Ret q)) (hc : (S.sem q).rowScan = some c) (scan : Scan S) (tx : Tx S)
      (w w' : World ι S) (henv : C.Env i tx w w')
      (h : C.Scans i c scan.snapshot
        (fun w => C.Safe i (fun r _ => Q r) (k (.error .failed)) {} w)
        (fun found tx w => C.Answers i tx w fun tx w =>
          C.Safe i (fun r _ => Q r) (k (.ok (c.out (found c.t)))) tx w)
        scan.todo scan.found tx w) :
      ThreadOk i Q { prog := .call (.sql q) k, tx, scan := some scan } w'

/-- A run from `w₀`, in which each commit is as its program guarantees. -/
inductive History (w₀ : World ι S) : World ι S → Prop where
  | start : History w₀ w₀
  | note {w : World ι S} (h : History w₀ w) (i : ι) (q : S.Stmt) (s : S.Store) :
      History w₀ (w.note i q s)
  | commit {w : World ι S} (h : History w₀ w) (i : ι) (log : List (Version S))
      (hdistinct : S.Distinct w.db) (hguar : C.guar i w log) :
      History w₀ (w.commit i log)

end Contract

/-- The invariant of a machine whose programs meet a contract. -/
structure Machine.Ok (C : Contract ι S) (Q : ι → Except ε α → World ι S → Prop) (w₀ : World ι S)
    (m : Machine ι S ε α) : Prop where
  locking : Locking m.world.db fun i => (m.threads i).tx
  history : C.History w₀ m.world
  threads : ∀ i, C.ThreadOk i (Q i) (m.threads i) m.world

/-! ### Histories -/

/-- The tables after these entries, the latest first. -/
def replay (db : S.Store) : List (Entry ι S) → S.Store
  | [] => db
  | .snapshot _ _ _ :: rest => replay db rest
  | .commit _ _ log :: rest => install log (replay db rest)

/-- A commit of the thread has set the flag. -/
def World.SetBy (w : World ι S) (i : ι) (flag : S.Store → Prop) : Prop :=
  ∃ db log, Entry.commit i db log ∈ w.trace ∧ ¬flag db ∧ flag (install log db)

namespace Contract.History

variable {C : Contract ι S} {db : S.Store} {w : World ι S} {flag : S.Store → Prop}

/-- The record is complete. -/
theorem replay_eq (h : C.History ⟨db, []⟩ w) : w.db = replay db w.trace := by
  induction h with
  | start => rfl
  | note h i q s ih => exact ih
  | commit h i log hdistinct hguar ih => exact congrArg (install log) ih

theorem replay_commit (h : C.History ⟨db, []⟩ w) (i : ι) (log : List (Version S)) :
    replay db (.commit i w.db log :: w.trace) = install log w.db :=
  (congrArg (install log) h.replay_eq).symm

/-- A run goes through every state that its record shows. -/
theorem split (h : C.History ⟨db, []⟩ w) : ∀ later earlier, w.trace = later ++ earlier →
    C.History ⟨db, []⟩ ⟨replay db earlier, earlier⟩ ∧ C.History ⟨replay db earlier, earlier⟩ w := by
  induction h with
  | start =>
      intro later earlier htrace
      obtain ⟨rfl, rfl⟩ := List.append_eq_nil_iff.1 htrace.symm
      exact ⟨.start, .start⟩
  | @note w h i q s ih =>
      intro later earlier htrace
      cases later with
      | nil =>
          obtain rfl : .snapshot i q s :: w.trace = earlier := htrace
          have hrun := h.note i q s
          have hdb : (w.note i q s).db = _ := hrun.replay_eq
          exact hdb ▸ ⟨hrun, .start⟩
      | cons e later =>
          obtain ⟨hto, hfrom⟩ := ih later earlier (List.cons.inj htrace).2
          exact ⟨hto, hfrom.note i q s⟩
  | @commit w h i log hdistinct hguar ih =>
      intro later earlier htrace
      cases later with
      | nil =>
          obtain rfl : .commit i w.db log :: w.trace = earlier := htrace
          have hrun := h.commit i log hdistinct hguar
          have hdb : (w.commit i log).db = _ := hrun.replay_eq
          exact hdb ▸ ⟨hrun, .start⟩
      | cons e later =>
          obtain ⟨hto, hfrom⟩ := ih later earlier (List.cons.inj htrace).2
          exact ⟨hto, hfrom.commit i log hdistinct hguar⟩

/-- The tables before a commit are those that the record says. -/
theorem before_eq (h : C.History ⟨db, []⟩ w) {i : ι} {before : S.Store} {log : List (Version S)}
    {earlier : List (Entry ι S)} : ∀ later, w.trace = later ++ .commit i before log :: earlier →
      before = replay db earlier := by
  induction h with
  | start =>
      intro later htrace
      obtain ⟨-, htrace⟩ := List.append_eq_nil_iff.1 htrace.symm
      cases htrace
  | note h j q s ih =>
      intro later htrace
      cases later with
      | nil => cases (List.cons.inj htrace).1
      | cons e later => exact ih later (List.cons.inj htrace).2
  | commit h j log' hdistinct hguar ih =>
      intro later htrace
      cases later with
      | nil =>
          obtain ⟨hentry, rfl⟩ := List.cons.inj htrace
          cases hentry
          exact h.replay_eq
      | cons e later => exact ih later (List.cons.inj htrace).2

/-- The unique constraints hold all the time. -/
theorem distinct (h : C.History ⟨db, []⟩ w) : S.Distinct w.db →
    ∀ earlier, earlier <:+ w.trace → S.Distinct (replay db earlier) := by
  induction h with
  | start =>
      intro hw earlier hsuffix
      rw [List.suffix_nil.1 hsuffix]
      exact hw
  | note h i q s ih =>
      intro hw earlier hsuffix
      rcases List.suffix_cons_iff.1 hsuffix with rfl | hsuffix
      · exact (h.note i q s).replay_eq ▸ hw
      · exact ih hw earlier hsuffix
  | commit h i log hdistinct hguar ih =>
      intro hw earlier hsuffix
      rcases List.suffix_cons_iff.1 hsuffix with rfl | hsuffix
      · exact (h.commit i log hdistinct hguar).replay_eq ▸ hw
      · exact ih hdistinct earlier hsuffix

/-- A flag that no commit clears stays set. -/
theorem kept (h : C.History ⟨db, []⟩ w)
    (hkeep : ∀ i w log, S.Distinct w.db → C.guar i w log → flag w.db → flag (install log w.db))
    (hflag : flag db ∨ ∃ i, w.SetBy i flag) : flag w.db := by
  induction h with
  | start =>
      rcases hflag with h | ⟨i, db, log, hmem, -, -⟩
      · exact h
      · exact absurd hmem List.not_mem_nil
  | note h i q s ih =>
      refine ih (hflag.imp_right fun ⟨j, db, log, hmem, hset⟩ => ⟨j, db, log, ?_, hset⟩)
      rcases List.mem_cons.1 hmem with heq | hmem
      · cases heq
      · exact hmem
  | @commit w h i log hdistinct hguar ih =>
      rcases hflag with hflag | ⟨j, db', log', hmem, hunset, hset⟩
      · exact hkeep i w log hdistinct hguar (ih (.inl hflag))
      · rcases List.mem_cons.1 hmem with heq | hmem
        · cases heq
          exact hset
        · exact hkeep i w log hdistinct hguar (ih (.inr ⟨j, db', log', hmem, hunset, hset⟩))

/-- **A flag that no commit clears is set once**, and only if it was not set at the start. -/
theorem set_once (h : C.History ⟨db, []⟩ w)
    (hkeep : ∀ i w log, S.Distinct w.db → C.guar i w log → flag w.db → flag (install log w.db))
    {i j : ι} (hi : w.SetBy i flag) (hj : w.SetBy j flag) : ¬flag db ∧ i = j := by
  induction h with
  | start =>
      obtain ⟨db', log, hmem, -, -⟩ := hi
      exact absurd hmem List.not_mem_nil
  | @note w h k q s ih =>
      have hearlier {i : ι} (hi : (w.note k q s).SetBy i flag) : w.SetBy i flag := by
        obtain ⟨db', log, hmem, hset⟩ := hi
        rcases List.mem_cons.1 hmem with heq | hmem
        · cases heq
        · exact ⟨db', log, hmem, hset⟩
      exact ih (hearlier hi) (hearlier hj)
  | @commit w h k log hdistinct hguar ih =>
      have hcases {i : ι} (hi : (w.commit k log).SetBy i flag) :
          (i = k ∧ ¬flag w.db) ∨ w.SetBy i flag := by
        obtain ⟨db', log', hmem, hunset, hset⟩ := hi
        rcases List.mem_cons.1 hmem with heq | hmem
        · cases heq
          exact .inl ⟨rfl, hunset⟩
        · exact .inr ⟨db', log', hmem, hunset, hset⟩
      have hkept := h.kept hkeep
      rcases hcases hi with ⟨rfl, hunset⟩ | hi'
      · rcases hcases hj with ⟨rfl, -⟩ | hj'
        · exact ⟨fun h => hunset (hkept (.inl h)), rfl⟩
        · exact absurd (hkept (.inr ⟨j, hj'⟩)) hunset
      · rcases hcases hj with ⟨rfl, hunset⟩ | hj'
        · exact absurd (hkept (.inr ⟨i, hi'⟩)) hunset
        · exact ih hi' hj'

end Contract.History

/-! ### Soundness -/

section soundness

variable {C : Contract ι S} {i : ι} {tx : Tx S} {w w' w'' : World ι S}

theorem Contract.Env.refl (h : S.Distinct w.db) : C.Env i tx w w :=
  ⟨C.refl i w, h, fun _ _ _ => Iff.rfl⟩

theorem Contract.Env.trans (h : C.Env i tx w w') (h' : C.Env i tx w' w'') : C.Env i tx w w'' where
  rely := C.trans i w w' w'' h.rely h'.rely
  distinct := h'.distinct
  locked t r hr := (h'.locked t r hr).trans (h.locked t r hr)

/-- A thread that holds nothing. -/
theorem Contract.Env.free (h : C.Env i tx w w') (explicit : Bool) : C.Env i { explicit } w w' :=
  ⟨h.rely, h.distinct, fun _ _ hr => absurd hr List.not_mem_nil⟩

namespace Contract.ThreadOk

variable {Q : Except ε α → World ι S → Prop} {θ : Thread S ε α}

/-- The others go on. -/
theorem env (h : C.ThreadOk i Q θ w) (henv : C.Env i θ.tx w w') : C.ThreadOk i Q θ w' := by
  cases h with
  | running p tx w₀ w henv₀ h => exact .running p tx w₀ w' (henv₀.trans henv) h
  | scanning q k c hc scan tx w₀ w henv₀ h =>
      exact .scanning q k c hc scan tx w₀ w' (henv₀.trans henv) h

/-- Between two statements the rest of the program is safe. -/
theorem safe (h : C.ThreadOk i Q θ w) (hscan : θ.scan = none) :
    ∃ w₀, C.Env i θ.tx w₀ w ∧ C.Safe i (fun r _ => Q r) θ.prog θ.tx w₀ := by
  cases h with
  | running p tx w₀ w henv h => exact ⟨w₀, henv, h⟩
  | scanning q k c hc scan tx w₀ w henv h => cases hscan

/-- Inside a statement the rest of the statement is safe. -/
theorem scans (h : C.ThreadOk i Q θ w) {q : S.Stmt} {k : Except SqlError (S.Ret q) → Handler S ε α}
    (hprog : θ.prog = .call (.sql q) k) {scan : Scan S} (hscan : θ.scan = some scan)
    {c : RowScan S.Row (S.Ret q)} (hc : (S.sem q).rowScan = some c) :
    ∃ w₀, C.Env i θ.tx w₀ w ∧ C.Scans i c scan.snapshot
      (fun w => C.Safe i (fun r _ => Q r) (k (.error .failed)) {} w)
      (fun found tx w => C.Answers i tx w fun tx w =>
        C.Safe i (fun r _ => Q r) (k (.ok (c.out (found c.t)))) tx w)
      scan.todo scan.found θ.tx w₀ := by
  cases h with
  | running p tx w₀ w henv h => cases hscan
  | scanning q' k' c' hc' scan' tx w₀ w henv h =>
      obtain rfl := Option.some.inj hscan
      cases hprog
      obtain rfl := Option.some.inj (hc'.symm.trans hc)
      exact ⟨w₀, henv, h⟩

theorem scan_eq_none (h : C.ThreadOk i Q θ w) {o : Call S} {k : o.Ans → Handler S ε α}
    (hprog : θ.prog = .call o k) (ho : ∀ q, o ≠ .sql q) : θ.scan = none := by
  cases h with
  | running p tx w₀ w henv h => rfl
  | scanning q k' c hc scan tx w₀ w henv h =>
      cases hprog
      exact absurd rfl (ho q)

/-- A call may fail at any time. -/
theorem fail (h : C.ThreadOk i Q θ w) {o : Call S} {k : o.Ans → Handler S ε α}
    (hprog : θ.prog = .call o k) : C.Safe i (fun r _ => Q r) (k o.failed) {} w := by
  cases h with
  | running p tx w₀ w henv h =>
      obtain rfl : p = .call o k := hprog
      cases o with
      | begin => exact (h w henv).1
      | commit => exact (h w henv).1
      | sql q => exact (h w henv).1
  | scanning q k' c hc scan tx w₀ w henv h =>
      cases hprog
      cases htodo : scan.todo with
      | nil =>
          rw [htodo] at h
          exact (h w henv).1
      | cons key rest =>
          rw [htodo] at h
          exact (h w henv).1

/-- A program has ended. -/
theorem ended (h : C.ThreadOk i Q θ w)
    (hprog : (∃ a, θ.prog = .ret a) ∨ ∃ e, θ.prog = .fail e) :
    C.ThreadOk i Q { prog := θ.prog } w := by
  cases h with
  | running p tx w₀ w henv h =>
      refine .running p {} w₀ w (henv.free false) ?_
      rcases hprog with ⟨a, ha⟩ | ⟨e, he⟩
      · obtain rfl : p = .ret a := ha
        exact h
      · obtain rfl : p = .fail e := he
        exact h
  | scanning q k c hc scan tx w₀ w henv h => rcases hprog with ⟨a, ha⟩ | ⟨e, he⟩ <;> cases ‹_›

end Contract.ThreadOk

theorem Contract.Starts.scans {q : S.Stmt} {P : Except SqlError (S.Ret q) → Tx S → World ι S → Prop}
    (h : C.Starts i q tx w P) {c : RowScan S.Row (S.Ret q)} (hc : (S.sem q).rowScan = some c) :
    C.Scans i c (tx.view w.db) (fun w => P (.error .failed) {} w)
      (fun found tx w => C.Answers i tx w (P (.ok (c.out (found c.t)))))
      (c.start (tx.view w.db)).todo (c.start (tx.view w.db)).found tx
      (w.note i q (tx.view w.db)) := by
  unfold Starts at h
  cases hq : S.sem q with
  | lock t p out =>
      rw [hq] at h hc
      obtain rfl := Option.some.inj hc
      exact h
  | update t p f out =>
      rw [hq] at h hc
      obtain rfl := Option.some.inj hc
      exact h
  | _ =>
      rw [hq] at hc
      cases hc

theorem Contract.Starts.inserts {q : S.Stmt}
    {P : Except SqlError (S.Ret q) → Tx S → World ι S → Prop} (h : C.Starts i q tx w P)
    {t : S.Table} {r : S.Row t} {out : S.Ret q} (hq : (S.sem q).Inserts (tx.view w.db) t r out) :
    C.Inserts i tx (w.note i q (tx.view w.db)) t r fun a => P (a.map fun _ => out) := by
  unfold Starts at h
  generalize S.sem q = sem at h hq
  cases hq with
  | insert => exact h
  | upsert hit f hnone =>
      dsimp only at h
      rwa [hnone] at h

section machine

variable {Q : ι → Except ε α → World ι S → Prop} {w₀ : World ι S} {m m' : Machine ι S ε α}
  {θ : Thread S ε α} {p : Handler S ε α}

theorem Machine.Ok.refl (h : m.Ok C Q w₀) (tx : Tx S) : C.Env i tx m.world m.world :=
  .refl h.locking.distinct

/-- A statement sees its snapshot. -/
theorem Machine.Ok.env_note (h : m.Ok C Q w₀) (i : ι) (q : S.Stmt) (s : S.Store) (j : ι)
    (hj : j ≠ i) : C.Env j (m.threads j).tx m.world (m.world.note i q s) :=
  ⟨C.note j i hj.symm _ _ _, h.locking.distinct, fun _ _ _ => Iff.rfl⟩

/-- A program that has ended. -/
theorem Machine.Ok.result (h : m.Ok C Q w₀) (i : ι) {a : α} (hret : (m.threads i).prog = .ret a) :
    ∃ w, C.rely i w m.world ∧ Q i (.ok a) w := by
  have hthread := h.threads i
  generalize m.threads i = θ at hthread hret
  cases hthread with
  | running p tx w _ henv hsafe =>
      obtain rfl : p = .ret a := hret
      exact ⟨w, henv.rely, hsafe⟩
  | scanning q k c hc scan tx w _ henv hscans => cases hret

variable [DecidableEq ι]

theorem tx_update (m : Machine ι S ε α) (i : ι) (θ : Thread S ε α) :
    (fun j => (Function.update m.threads i θ j).tx) =
      Function.update (fun j => (m.threads j).tx) i θ.tx :=
  Function.comp_update (fun θ : Thread S ε α => θ.tx) m.threads i θ

/-- One thread goes on, in a world the others can live with. -/
theorem Machine.Ok.replace (h : m.Ok C Q w₀) {w : World ι S}
    (hlocking : Locking w.db (Function.update (fun j => (m.threads j).tx) i θ.tx))
    (hhistory : C.History w₀ w) (henv : ∀ j, j ≠ i → C.Env j (m.threads j).tx m.world w)
    (hθ : C.ThreadOk i (Q i) θ w) :
    Machine.Ok C Q w₀ ⟨w, Function.update m.threads i θ⟩ where
  locking := by
    rw [tx_update]
    exact hlocking
  history := hhistory
  threads j := by
    show C.ThreadOk j (Q j) (Function.update m.threads i θ j) w
    by_cases hj : j = i
    · subst hj
      rw [Function.update_self]
      exact hθ
    · rw [Function.update_of_ne hj]
      exact (h.threads j).env (henv j hj)

/-- The world stays as it is. -/
theorem Machine.Ok.set (h : m.Ok C Q w₀)
    (hlocking : Locking m.world.db (Function.update (fun j => (m.threads j).tx) i θ.tx))
    (hθ : C.ThreadOk i (Q i) θ m.world) : (m.set i θ).Ok C Q w₀ :=
  h.replace hlocking h.history (fun _ _ => h.refl _) hθ

theorem Machine.Ok.set_note (h : m.Ok C Q w₀) {q : S.Stmt} {s : S.Store}
    (hlocking : Locking m.world.db (Function.update (fun j => (m.threads j).tx) i θ.tx))
    (hθ : C.ThreadOk i (Q i) θ (m.world.note i q s)) : ((m.note i q s).set i θ).Ok C Q w₀ :=
  h.replace hlocking (h.history.note i q s) (h.env_note i q s) hθ

/-- A transaction is committed. -/
theorem Machine.Ok.commit (h : m.Ok C Q w₀) (hS : S.Keyed) {w : World ι S}
    (hdb : w.db = m.world.db) (hhistory : C.History w₀ w)
    (henv : ∀ j, j ≠ i → C.Env j (m.threads j).tx m.world w)
    (hlocking : Locking m.world.db (Function.update (fun j => (m.threads j).tx) i tx))
    (hsafe : C.Commits i tx w fun tx w => C.Safe i (fun r _ => Q i r) p tx w) :
    (Machine.commit ⟨w, m.threads⟩ i tx p).Ok C Q w₀ := by
  obtain ⟨hguar, hsafe⟩ := hsafe
  have hcommitted : Locking (w.commit i tx.log).db
      (Function.update (fun j => (m.threads j).tx) i {}) := by
    have hlocking := hlocking.commit hS i
    rw [Function.update_self, Function.update_idem] at hlocking
    rw [World.commit, hdb]
    exact hlocking
  have hdistinct : S.Distinct w.db := hdb ▸ h.locking.distinct
  refine h.replace hcommitted (hhistory.commit i tx.log hdistinct hguar) (fun j hj => ?_) ?_
  · refine (henv j hj).trans ⟨C.commit j i hj.symm w tx.log hdistinct hguar, hcommitted.distinct, ?_⟩
    intro t r hr
    have hview := hlocking.mem_view_of_locked (i := i) (j := j) (t := t) (r := r) hj.symm
      (by rwa [Function.update_of_ne hj])
    rw [Function.update_self, ← hdb] at hview
    exact hview
  · exact .running p {} _ _ (.refl hcommitted.distinct) hsafe

/-- A statement has succeeded, and its transaction is committed unless it goes on. -/
theorem Machine.Ok.answer (h : m.Ok C Q w₀) (hS : S.Keyed) {w : World ι S}
    (hdb : w.db = m.world.db) (hhistory : C.History w₀ w)
    (henv : ∀ j, j ≠ i → C.Env j (m.threads j).tx m.world w)
    (hlocking : Locking m.world.db (Function.update (fun j => (m.threads j).tx) i tx))
    (hsafe : C.Answers i tx w fun tx w => C.Safe i (fun r _ => Q i r) p tx w) :
    (Machine.answer ⟨w, m.threads⟩ i tx p).Ok C Q w₀ := by
  unfold Machine.answer
  unfold Contract.Answers at hsafe
  split_ifs at hsafe ⊢ with hexplicit
  · refine h.replace (hdb ▸ hlocking) hhistory henv ?_
    exact .running p tx w w (.refl (hdb ▸ h.locking.distinct)) hsafe
  · exact h.commit hS hdb hhistory henv hlocking hsafe

variable [Fintype ι]

/-- What a step needs. -/
theorem Machine.held_eq_false {x : RowId S} (h : m.held i x = false) :
    ∀ j, j ≠ i → x ∉ (m.threads j).tx.locks := by
  intro j hj hx
  exact of_decide_eq_false h ⟨j, hj, hx⟩

theorem Machine.blocked_eq_false {t : S.Table} {r : S.Row t} (h : m.blocked i t r = false) :
    ∀ j, j ≠ i → (t, S.key t r) ∉ (m.threads j).tx.locks ∧
      ∀ x ∈ install (m.threads j).tx.log (fun _ => []) t, S.clash t r x = false := by
  intro j hj
  have hnot := of_decide_eq_false h
  refine ⟨fun hx => hnot ⟨j, hj, .inl hx⟩, fun x hx => ?_⟩
  by_contra hclash
  rw [Bool.not_eq_false] at hclash
  exact hnot ⟨j, hj, .inr (List.any_eq_true.2 ⟨x, hx, hclash⟩)⟩

/-- **A step keeps the invariant.** -/
theorem Machine.Ok.step (h : m.Ok C Q w₀) (hS : S.Keyed) (hstep : m.Step i m') : m'.Ok C Q w₀ := by
  have hthread := h.threads i
  have hlocking := h.locking
  have hsame : Locking m.world.db
      (Function.update (fun j => (m.threads j).tx) i (m.threads i).tx) := by
    rw [Function.update_eq_self i fun j => (m.threads j).tx]
    exact hlocking
  cases hstep with
  | ended hprog => exact h.set (hlocking.drop hS i false) (hthread.ended hprog)
  | failed o k hprog =>
      exact h.set (hlocking.drop hS i false) (.running _ {} _ _ (h.refl _) (hthread.fail hprog))
  | begin k hprog =>
      obtain ⟨w, henv, hsafe⟩ := hthread.safe (hthread.scan_eq_none hprog (by simp))
      rw [hprog] at hsafe
      exact h.set (hlocking.drop hS i true) (.running _ _ _ _ (h.refl _) (hsafe _ henv).2)
  | commit k hprog =>
      obtain ⟨w, henv, hsafe⟩ := hthread.safe (hthread.scan_eq_none hprog (by simp))
      rw [hprog] at hsafe
      exact h.commit hS rfl h.history (fun _ _ => h.refl _) hsame (hsafe _ henv).2
  | select q k hprog hscan f hq =>
      obtain ⟨w, henv, hsafe⟩ := hthread.safe hscan
      rw [hprog] at hsafe
      have hstarts := (hsafe _ henv).2
      unfold Contract.Starts at hstarts
      rw [hq] at hstarts
      exact h.set_note hsame (.running _ _ _ _ (.refl hlocking.distinct) hstarts)
  | duplicate q k hprog hscan t r out hq hclash =>
      obtain ⟨w, henv, hsafe⟩ := hthread.safe hscan
      rw [hprog] at hsafe
      have hinserts := (hsafe _ henv).2.inserts hq
      exact h.set_note (hlocking.drop hS i false)
        (.running _ _ _ _ (.refl hlocking.distinct) (hinserts.1 hclash))
  | inserted q k hprog hscan t r out hq hclash hfree =>
      obtain ⟨w, henv, hsafe⟩ := hthread.safe hscan
      rw [hprog] at hsafe
      have hinserts := (hsafe _ henv).2.inserts hq
      have hfree := blocked_eq_false hfree
      refine h.answer hS rfl (h.history.note i q _) (h.env_note i q _) ?_ (hinserts.2 hclash)
      refine hlocking.insert hS (fun x hx => ?_) (fun j hj => (hfree j hj).1) fun j hj => (hfree j hj).2
      by_contra hx'
      rw [Bool.not_eq_false] at hx'
      exact hclash (List.any_eq_true.2 ⟨x, hx, hx'⟩)
  | upserted q k hprog hscan t r hit f out hq x hx hfree =>
      obtain ⟨w, henv, hsafe⟩ := hthread.safe hscan
      rw [hprog] at hsafe
      have hstarts := (hsafe _ henv).2
      unfold Contract.Starts at hstarts
      rw [hq] at hstarts
      dsimp only at hstarts
      rw [hx] at hstarts
      have hrow := hS.keepsRow q
      rw [hq] at hrow
      refine h.answer hS rfl (h.history.note i q _) (h.env_note i q _) ?_ hstarts
      refine hlocking.take hS (List.mem_of_find?_eq_some hx) (held_eq_false hfree) ?_
        (.inr ⟨f x, hrow x, rfl⟩)
      rw [Tx.write, Version.id, (hrow x).1]
  | started q k hprog hscan c hc =>
      obtain ⟨w, henv, hsafe⟩ := hthread.safe hscan
      rw [hprog] at hsafe
      exact h.set_note hsame (.scanning q k c hc _ _ _ _ (.refl hlocking.distinct)
        ((hsafe _ henv).2.scans hc))
  | visited q k hprog scan hscan c hc key rest htodo hfree =>
      obtain ⟨w, henv, hscans⟩ := hthread.scans hprog hscan hc
      rw [htodo] at hscans
      refine h.set (hlocking.visit hS hc _ _ _ (held_eq_false hfree)) ?_
      exact .scanning q k c hc _ _ _ _ (h.refl _) (hscans _ henv).2
  | finished q k hprog scan hscan c hc htodo =>
      obtain ⟨w, henv, hscans⟩ := hthread.scans hprog hscan hc
      rw [htodo] at hscans
      exact h.answer hS rfl h.history (fun _ _ => h.refl _) hsame (hscans _ henv).2

/-- A run keeps the invariant. -/
theorem Machine.Ok.run (hS : S.Keyed) (schedule : List (ι × Bool)) :
    ∀ {m m' : Machine ι S ε α}, m.Ok C Q w₀ → m.run schedule = some m' → m'.Ok C Q w₀ := by
  induction schedule with
  | nil =>
      intro m m' h hrun
      obtain rfl := Option.some.inj hrun
      exact h
  | cons step rest ih =>
      obtain ⟨i, fault⟩ := step
      intro m m' h hrun
      rw [Machine.run, Option.bind_eq_some_iff] at hrun
      obtain ⟨m₁, hstep, hrun⟩ := hrun
      exact ih (h.step hS (step_cases hstep)) hrun

/-- **Soundness.**  Programs that meet a contract meet it when they run at the same time. -/
theorem Machine.run_ok (hS : S.Keyed) {programs : ι → Handler S ε α} {db : S.Store}
    (hdb : S.Distinct db) (hsafe : ∀ i, C.Safe i (fun r _ => Q i r) (programs i) {} ⟨db, []⟩)
    {schedule : List (ι × Bool)} (hrun : (start programs db).run schedule = some m) :
    m.Ok C Q ⟨db, []⟩ := by
  refine Ok.run hS schedule ⟨.start hdb, .start, fun i => ?_⟩ hrun
  exact .running _ {} _ _ (.refl hdb) (hsafe i)

end machine

end soundness

end SharpOauth
