import SharpOauth.Prog

/-! # Tables, statements and transactions

A database is a finite list of rows for each table (`Store`).  A statement (`Sql`) is given
by what it reads, by the rows it changes and by the rows it returns; a `Schema` fixes the
tables, the row keys, the unique constraints and the statements of one application, and its
handlers are programs over `Call`: statements and the two ends of a transaction.

This module gives the *serial* semantics, in which a program runs from its first call to its
last with nothing in between.  Statements outside a transaction commit by themselves; inside
one they work on a copy that `commit` installs and that is dropped otherwise.  A statement
or a `commit` may fail (`faults`): it then changes nothing and the program is told so.  A `commit`
that took effect although its answer was lost is not among these failures.

`Prog.wp Q p` is the weakest precondition of `p` over all faults (`Prog.wp_run`). -/

namespace SharpOauth

/-- Why a statement did not succeed. -/
inductive SqlError where
  /-- The connection was lost, the statement timed out, it was a deadlock victim, the database
  refused a text (PostgreSQL stores no U+0000 in `TEXT`), ... -/
  | failed
  | duplicate
  | foreignKey
deriving DecidableEq, Repr

/-- The rows of every table, in insertion order. -/
abbrev Store {Table : Type} (Row : Table → Type) : Type := (t : Table) → List (Row t)

/-- One statement, with a result of type `β`. -/
inductive Sql {Table : Type} (Row : Table → Type) (β : Type) where
  /-- `SELECT` -/
  | select (f : Store Row → β)
  /-- `SELECT … WHERE p FOR UPDATE` -/
  | lock (t : Table) (p : Store Row → Row t → Bool) (out : List (Row t) → β)
  /-- `INSERT` -/
  | insert (t : Table) (r : Row t) (out : β)
  /-- `INSERT … ON CONFLICT (hit) DO UPDATE SET f` -/
  | upsert (t : Table) (r : Row t) (hit : Row t → Bool) (f : Row t → Row t) (out : β)
  /-- `UPDATE … SET f WHERE p RETURNING *` -/
  | update (t : Table) (p : Store Row → Row t → Bool) (f : Row t → Row t) (out : List (Row t) → β)
  /-- `DELETE` with its cascades; `none` when a foreign key forbids it -/
  | delete (d : Store Row → Option (Store Row)) (out : β)

/-- The tables and statements of one application. -/
structure Schema where
  Table : Type
  Row : Table → Type
  Key : Type
  Stmt : Type
  Ret : Stmt → Type
  /-- The primary key, which identifies a row for its whole life. -/
  key : (t : Table) → Row t → Key
  /-- The two rows may not both be in the table. -/
  clash : (t : Table) → Row t → Row t → Bool
  sem : (q : Stmt) → Sql Row (Ret q)
  decTable : DecidableEq Table
  decKey : DecidableEq Key

attribute [instance] Schema.decTable Schema.decKey

/-- What a program asks of the database. -/
inductive Call (S : Schema) where
  | begin
  | commit
  | sql (q : S.Stmt)

/-- The answers to the calls. -/
abbrev Call.Ans {S : Schema} : Call S → Type
  | .begin => Except SqlError Unit
  | .commit => Except SqlError Unit
  | .sql q => Except SqlError (S.Ret q)

/-- Programs over the database of `S`. -/
abbrev Handler (S : Schema) (ε α : Type) : Type := Prog (Call S) Call.Ans ε α

namespace Handler

variable {S : Schema} {ε : Type} [Into SqlError ε]

/-- Run one statement; a failure ends the program. -/
def query (q : S.Stmt) : Handler S ε (S.Ret q) := .call (.sql q) fun r => .ofExcept r

def begin : Handler S ε Unit := .call .begin fun r => .ofExcept r

def commit : Handler S ε Unit := .call .commit fun r => .ofExcept r

end Handler

/-! ### Serial semantics -/

section serial

variable {Table : Type} {Row : Table → Type} [DecidableEq Table] {β : Type}

/-- The store with one table replaced. -/
def Store.set (s : Store Row) (t : Table) (rows : List (Row t)) : Store Row :=
  Function.update s t rows

@[simp] theorem Store.set_same (s : Store Row) (t : Table) (rows : List (Row t)) :
    s.set t rows t = rows := Function.update_self ..

theorem Store.set_ne (s : Store Row) {t t' : Table} (rows : List (Row t)) (h : t' ≠ t) :
    s.set t rows t' = s t' := Function.update_of_ne h ..

@[simp] theorem Store.set_eq_self (s : Store Row) (t : Table) : s.set t (s t) = s :=
  Function.update_eq_self ..

/-- A statement on a whole store. -/
def Sql.exec (clash : (t : Table) → Row t → Row t → Bool) :
    Sql Row β → Store Row → Except SqlError β × Store Row
  | .select f, s => (.ok (f s), s)
  | .lock t p out, s => (.ok (out ((s t).filter (p s))), s)
  | .insert t r out, s =>
      if (s t).any (clash t r) then (.error .duplicate, s) else (.ok out, s.set t (s t ++ [r]))
  | .upsert t r hit f out, s =>
      if (s t).any hit then (.ok out, s.set t ((s t).map fun x => if hit x then f x else x))
      else if (s t).any (clash t r) then (.error .duplicate, s)
      else (.ok out, s.set t (s t ++ [r]))
  | .update t p f out, s =>
      (.ok (out (((s t).filter (p s)).map f)), s.set t ((s t).map fun x => if p s x then f x else x))
  | .delete d out, s =>
      match d s with
      | some s' => (.ok out, s')
      | none => (.error .foreignKey, s)

/-- A statement that fails changes nothing. -/
theorem Sql.exec_error {clash : (t : Table) → Row t → Row t → Bool} {q : Sql Row β} {s : Store Row}
    {e : SqlError} (h : (q.exec clash s).1 = .error e) : (q.exec clash s).2 = s := by
  cases q with
  | select f => cases h
  | lock t p out => cases h
  | insert t r out =>
      rw [exec] at h ⊢
      split_ifs at h ⊢
      rfl
  | upsert t r hit f out =>
      rw [exec] at h ⊢
      split_ifs at h ⊢
      rfl
  | update t p f out => cases h
  | delete d out =>
      rw [exec] at h ⊢
      split at h
      · cases h
      · rfl

end serial

namespace Schema

/-- The rows of every table of `S`. -/
abbrev Store (S : Schema) : Type := SharpOauth.Store S.Row

end Schema

variable {S : Schema} {ε ε' α β : Type}

/-- A connection: the committed tables and the working copy of the open transaction. -/
structure Conn (S : Schema) where
  db : S.Store
  tx : Option S.Store := none

namespace Conn

/-- The tables the next statement works on. -/
def view (c : Conn S) : S.Store := c.tx.getD c.db

/-- Install the tables a statement left behind. -/
def put (c : Conn S) (s : S.Store) : Conn S :=
  match c.tx with
  | some _ => { c with tx := some s }
  | none => { c with db := s }

/-- One call; with `fault` it fails. -/
def answer (c : Conn S) (fault : Bool) : (o : Call S) → o.Ans × Conn S
  | .begin => if fault then (.error .failed, c) else (.ok (), { c with tx := some c.db })
  | .commit => if fault then (.error .failed, c) else (.ok (), { db := c.view, tx := none })
  | .sql q =>
      if fault then (.error .failed, c)
      else (((S.sem q).exec S.clash c.view).1, c.put ((S.sem q).exec S.clash c.view).2)

end Conn

/-- A program on a connection; `faults` tells which of its calls fail. -/
def Prog.run : Handler S ε α → List Bool → Conn S → Except ε α × Conn S
  | .ret a, _, c => (.ok a, c)
  | .fail e, _, c => (.error e, c)
  | .call o k, faults, c =>
      let r := c.answer (faults.headD false) o
      (k r.1).run faults.tail r.2

/-- A whole request: a transaction that is still open at its end is dropped. -/
def Prog.serve (p : Handler S ε α) (faults : List Bool) (db : S.Store) : Except ε α × S.Store :=
  let r := p.run faults { db }
  (r.1, r.2.db)

namespace Prog

/-- A sequence fails where its first program fails. -/
theorem run_bind_error {p : Handler S ε α} {f : α → Handler S ε β} {e : ε} :
    ∀ {faults : List Bool} {c c' : Conn S}, p.run faults c = (.error e, c') →
      (p.bind f).run faults c = (.error e, c') := by
  induction p with
  | ret a =>
      intro faults c c' h
      cases h
  | fail e' =>
      intro faults c c' h
      cases h
      rfl
  | call o k ih => exact fun h => ih _ h

theorem serve_bind_error {p : Handler S ε α} {f : α → Handler S ε β} {faults : List Bool}
    {db : S.Store} {e : ε} (h : (p.serve faults db).1 = .error e) :
    (p.bind f).serve faults db = (.error e, (p.serve faults db).2) := by
  have hrun : p.run faults { db } = (.error e, (p.run faults { db }).2) := Prod.ext h rfl
  rw [serve, run_bind_error hrun]
  rfl

/-- A sequence whose second part makes no call. -/
theorem run_bind_ofExcept {p : Handler S ε α} (g : α → Except ε β) :
    ∀ (faults : List Bool) (c : Conn S), (p.bind fun a => ofExcept (g a)).run faults c =
      ((p.run faults c).1.bind g, (p.run faults c).2) := by
  induction p with
  | ret a =>
      intro faults c
      show (ofExcept (g a) : Handler S ε β).run faults c = (g a, c)
      cases g a with
      | ok b => rfl
      | error e => rfl
  | fail e => exact fun _ _ => rfl
  | call o k ih => exact fun faults c => ih _ _ _

theorem serve_bind_ofExcept {p : Handler S ε α} (g : α → Except ε β) (faults : List Bool)
    (db : S.Store) : (p.bind fun a => ofExcept (g a)).serve faults db =
      ((p.serve faults db).1.bind g, (p.serve faults db).2) := by
  rw [serve, run_bind_ofExcept]
  rfl

end Prog

/-! ### Unique constraints -/

/-- No two rows of a table break a primary key or a unique constraint. -/
def Store.Unique {Table : Type} {Row : Table → Type} (clash : (t : Table) → Row t → Row t → Bool)
    (s : Store Row) : Prop :=
  ∀ t, (s t).Pairwise fun x y => clash t x y = false

/-- The statement leaves the constrained columns of existing rows alone. -/
def Sql.KeepsKeys {Table : Type} {Row : Table → Type} {β : Type}
    (clash : (t : Table) → Row t → Row t → Bool) : Sql Row β → Prop
  | .upsert t _ _ f _ | .update t _ f _ =>
      (∀ x y, clash t (f x) y = clash t x y) ∧ ∀ x y, clash t x (f y) = clash t x y
  | .delete d _ => ∀ s s', d s = some s' → Store.Unique clash s → Store.Unique clash s'
  | .select _ | .lock _ _ _ | .insert _ _ _ => True

section unique

/-- A search finds the only row there is to find. -/
theorem find_only {rows : List α} {p : α → Bool} {x : α} (hx : x ∈ rows) (hp : p x = true)
    (honly : ∀ y ∈ rows, p y = true → y = x) : rows.find? p = some x := by
  cases hfind : rows.find? p with
  | none => exact absurd hp (by simpa using List.find?_eq_none.1 hfind x hx)
  | some y => rw [honly y (List.mem_of_find?_eq_some hfind) (List.find?_some hfind)]

variable {Table : Type} {Row : Table → Type} {β : Type}
  {clash : (t : Table) → Row t → Row t → Bool}

/-- Rows keep apart when each is replaced by one that agrees on the constrained columns. -/
theorem pairwise_replace {t : Table} {rows : List (Row t)} (p : Row t → Bool) {f : Row t → Row t}
    (hf : (∀ x y, clash t (f x) y = clash t x y) ∧ ∀ x y, clash t x (f y) = clash t x y)
    (h : rows.Pairwise fun x y => clash t x y = false) :
    (rows.map fun x => if p x then f x else x).Pairwise fun x y => clash t x y = false := by
  refine h.map _ fun x y hxy => ?_
  split_ifs <;> simp [hf.1, hf.2, hxy]

theorem pairwise_append_new {t : Table} {rows : List (Row t)} {r : Row t}
    (hsymm : ∀ x y, clash t x y = clash t y x) (hr : ¬(rows.any (clash t r)) = true)
    (h : rows.Pairwise fun x y => clash t x y = false) :
    (rows ++ [r]).Pairwise fun x y => clash t x y = false := by
  refine List.pairwise_append.2 ⟨h, List.pairwise_singleton _ _, fun x hx y hy => ?_⟩
  rw [List.mem_singleton.1 hy, hsymm]
  simp only [List.any_eq_true, not_exists, not_and, Bool.not_eq_true] at hr
  exact hr x hx

variable [DecidableEq Table]

theorem Store.Unique.set {s : Store Row} (h : s.Unique clash) {t : Table} {rows : List (Row t)}
    (hrows : rows.Pairwise fun x y => clash t x y = false) : (s.set t rows).Unique clash := by
  intro t'
  by_cases ht : t' = t
  · subst ht
    rw [Store.set_same]
    exact hrows
  · rw [Store.set_ne s rows ht]
    exact h t'

/-- **A statement keeps the unique constraints.** -/
theorem Sql.exec_unique (hsymm : ∀ t x y, clash t x y = clash t y x) (q : Sql Row β)
    (hq : q.KeepsKeys clash) {s : Store Row} (h : s.Unique clash) :
    (q.exec clash s).2.Unique clash := by
  cases q with
  | select f => exact h
  | lock t p out => exact h
  | insert t r out =>
      rw [exec]
      split_ifs with hr
      · exact h
      · exact h.set (pairwise_append_new (hsymm t) hr (h t))
  | upsert t r hit f out =>
      rw [exec]
      split_ifs with hhit hr
      · exact h.set (pairwise_replace hit hq (h t))
      · exact h
      · exact h.set (pairwise_append_new (hsymm t) hr (h t))
  | update t p f out => exact h.set (pairwise_replace (p s) hq (h t))
  | delete d out =>
      rw [exec]
      split
      · rename_i s' hd
        exact hq s s' hd h
      · exact h

end unique

/-- The statements of a schema keep its unique constraints. -/
structure Schema.Lawful (S : Schema) : Prop where
  clash_symm : ∀ t x y, S.clash t x y = S.clash t y x
  keepsKeys : ∀ q, (S.sem q).KeepsKeys S.clash

/-- **A program keeps the unique constraints**, committed or not. -/
theorem Prog.run_unique (hS : S.Lawful) (p : Handler S ε α) : ∀ (faults : List Bool) (c : Conn S),
    c.db.Unique S.clash → c.view.Unique S.clash → (p.run faults c).2.db.Unique S.clash := by
  induction p with
  | ret a => exact fun faults c h _ => h
  | fail e => exact fun faults c h _ => h
  | call o k ih =>
      intro faults c hdb hview
      rw [run]
      cases faults.headD false with
      | true => cases o <;> exact ih _ _ _ hdb hview
      | false =>
          cases o with
          | begin => exact ih _ _ _ hdb hdb
          | commit => exact ih _ _ _ hview hview
          | sql q =>
              have hexec := (S.sem q).exec_unique hS.clash_symm (hS.keepsKeys q) hview
              obtain ⟨db, tx⟩ := c
              cases tx with
              | none => exact ih _ _ _ hexec hexec
              | some s => exact ih _ _ _ hdb hexec

/-! ### Frames -/

namespace Prog

/-- Every statement of the program is allowed, whatever the answers are. -/
inductive Only (allowed : S.Stmt → Prop) : Handler S ε α → Prop where
  | ret (a : α) : Only allowed (.ret a)
  | fail (e : ε) : Only allowed (.fail e)
  | call (o : Call S) (k : o.Ans → Handler S ε α) (ho : ∀ q, o = .sql q → allowed q)
      (hk : ∀ r, Only allowed (k r)) : Only allowed (.call o k)

variable {allowed : S.Stmt → Prop}

theorem only_bind {p : Handler S ε α} {f : α → Handler S ε β} (hp : p.Only allowed)
    (hf : ∀ a, (f a).Only allowed) : (p.bind f).Only allowed := by
  induction hp with
  | ret a => exact hf a
  | fail e => exact .fail e
  | call o k ho hk ih => exact .call o _ ho ih

theorem only_lift [Into ε ε'] {p : Handler S ε α} (hp : p.Only allowed) :
    (p.lift : Handler S ε' α).Only allowed := by
  induction hp with
  | ret a => exact .ret a
  | fail e => exact .fail _
  | call o k ho hk ih => exact .call o _ ho ih

theorem only_attempt {p : Handler S ε α} (hp : p.Only allowed) :
    (p.attempt : Handler S ε' (Except ε α)).Only allowed := by
  induction hp with
  | ret a => exact .ret _
  | fail e => exact .ret _
  | call o k ho hk ih => exact .call o _ ho ih

theorem only_ofExcept [Into ε ε'] (x : Except ε α) :
    (ofExcept x : Handler S ε' α).Only allowed := by
  cases x with
  | ok a => exact .ret a
  | error e => exact .fail _

theorem only_query [Into SqlError ε] {q : S.Stmt} (hq : allowed q) :
    (Handler.query q : Handler S ε (S.Ret q)).Only allowed :=
  .call _ _ (fun q' h => by cases h; exact hq) fun r => only_ofExcept r

theorem only_mono {allowed' : S.Stmt → Prop} (h : ∀ q, allowed q → allowed' q) {p : Handler S ε α}
    (hp : p.Only allowed) : p.Only allowed' := by
  induction hp with
  | ret a => exact .ret a
  | fail e => exact .fail e
  | call o k ho hk ih => exact .call o k (fun q hq => h q (ho q hq)) ih

/-- **Frame rule.**  What every allowed statement preserves, the program preserves. -/
theorem run_of_only {I : S.Store → Prop}
    (hI : ∀ q s, allowed q → I s → I ((S.sem q).exec S.clash s).2) {p : Handler S ε α}
    (hp : p.Only allowed) : ∀ (faults : List Bool) (c : Conn S), I c.db → I c.view →
      I (p.run faults c).2.db := by
  induction hp with
  | ret a => exact fun faults c h _ => h
  | fail e => exact fun faults c h _ => h
  | call o k ho hk ih =>
      intro faults c hdb hview
      rw [run]
      cases faults.headD false with
      | true => cases o <;> exact ih _ _ _ hdb hview
      | false =>
          cases o with
          | begin => exact ih _ _ _ hdb hdb
          | commit => exact ih _ _ _ hview hview
          | sql q =>
              have hexec := hI q _ (ho q rfl) hview
              obtain ⟨db, tx⟩ := c
              cases tx with
              | none => exact ih _ _ _ hexec hexec
              | some s => exact ih _ _ _ hdb hexec

end Prog

/-! ### Results -/

namespace Prog

/-- Every result of the program satisfies `P`, whatever the answers are. -/
inductive Yields (P : α → Prop) : Handler S ε α → Prop where
  | ret (a : α) (h : P a) : Yields P (.ret a)
  | fail (e : ε) : Yields P (.fail e)
  | call (o : Call S) (k : o.Ans → Handler S ε α) (hk : ∀ r, Yields P (k r)) : Yields P (.call o k)

variable {P : α → Prop} {P' : β → Prop}

theorem yields_true (p : Handler S ε α) : p.Yields fun _ => True := by
  induction p with
  | ret a => exact .ret a trivial
  | fail e => exact .fail e
  | call o k ih => exact .call o k ih

theorem yields_bind {p : Handler S ε α} {f : α → Handler S ε β} (hp : p.Yields P)
    (hf : ∀ a, P a → (f a).Yields P') : (p.bind f).Yields P' := by
  induction hp with
  | ret a h => exact hf a h
  | fail e => exact .fail e
  | call o k hk ih => exact .call o _ ih

/-- Only the last program of a sequence matters. -/
theorem yields_seq {p : Handler S ε α} {f : α → Handler S ε β} (hf : ∀ a, (f a).Yields P') :
    (p.bind f).Yields P' := yields_bind (yields_true p) fun a _ => hf a

theorem yields_attempt {p : Handler S ε α} (hp : p.Yields P) :
    (p.attempt : Handler S ε' (Except ε α)).Yields fun r => ∀ a, r = .ok a → P a := by
  induction hp with
  | ret a h =>
      refine .ret _ fun b hb => ?_
      cases hb
      exact h
  | fail e =>
      refine .ret _ fun b hb => ?_
      cases hb
  | call o k hk ih => exact .call o _ ih

/-- **A run returns what the program yields.** -/
theorem run_of_yields {p : Handler S ε α} (hp : p.Yields P) : ∀ (faults : List Bool) (c : Conn S)
    (a : α), (p.run faults c).1 = .ok a → P a := by
  induction hp with
  | ret a h =>
      intro faults c b hb
      cases hb
      exact h
  | fail e =>
      intro faults c b hb
      cases hb
  | call o k hk ih => exact fun faults c b hb => ih _ _ _ b hb

end Prog

/-! ### Weakest preconditions -/

namespace Prog

/-- `p.wp flaky Q c`: started on the connection `c`, the program `p` ends in `Q`, where any
of its calls may fail if `flaky` holds. -/
def wp (flaky : Prop) (Q : Except ε α → Conn S → Prop) : Handler S ε α → Conn S → Prop
  | .ret a, c => Q (.ok a) c
  | .fail e, c => Q (.error e) c
  | .call o k, c =>
      (flaky → (k (c.answer true o).1).wp flaky Q (c.answer true o).2) ∧
        (k (c.answer false o).1).wp flaky Q (c.answer false o).2

variable {flaky : Prop} {Q Q' : Except ε α → Conn S → Prop}

@[simp] theorem wp_ret (a : α) (c : Conn S) : (ret a : Handler S ε α).wp flaky Q c ↔ Q (.ok a) c := Iff.rfl

@[simp] theorem wp_fail (e : ε) (c : Conn S) : (fail e : Handler S ε α).wp flaky Q c ↔ Q (.error e) c := Iff.rfl

theorem wp_mono (h : ∀ r c, Q r c → Q' r c) (p : Handler S ε α) :
    ∀ c, p.wp flaky Q c → p.wp flaky Q' c := by
  induction p with
  | ret a => exact fun c hp => h _ _ hp
  | fail e => exact fun c hp => h _ _ hp
  | call o k ih => exact fun c hp => ⟨fun hf => ih _ _ (hp.1 hf), ih _ _ hp.2⟩

/-- A sequence is correct when its first half establishes what its second half needs. -/
theorem wp_bind {Q : Except ε β → Conn S → Prop} (p : Handler S ε α) (f : α → Handler S ε β) :
    ∀ c, (p.bind f).wp flaky Q c ↔ p.wp flaky (fun r c =>
      match r with
      | .ok a => (f a).wp flaky Q c
      | .error e => Q (.error e) c) c := by
  induction p with
  | ret a => exact fun c => Iff.rfl
  | fail e => exact fun c => Iff.rfl
  | call o k ih => exact fun c => and_congr (imp_congr_right fun _ => ih _ _) (ih _ _)

theorem wp_lift [Into ε ε'] {Q : Except ε' α → Conn S → Prop} (p : Handler S ε α) :
    ∀ c, p.lift.wp flaky Q c ↔ p.wp flaky (fun r c =>
      match r with
      | .ok a => Q (.ok a) c
      | .error e => Q (.error (Into.into e)) c) c := by
  induction p with
  | ret a => exact fun c => Iff.rfl
  | fail e => exact fun c => Iff.rfl
  | call o k ih => exact fun c => and_congr (imp_congr_right fun _ => ih _ _) (ih _ _)

theorem wp_attempt {Q : Except ε' (Except ε α) → Conn S → Prop} (p : Handler S ε α) :
    ∀ c, p.attempt.wp flaky Q c ↔ p.wp flaky (fun r c => Q (.ok r) c) c := by
  induction p with
  | ret a => exact fun c => Iff.rfl
  | fail e => exact fun c => Iff.rfl
  | call o k ih => exact fun c => and_congr (imp_congr_right fun _ => ih _ _) (ih _ _)

theorem wp_lift_bind [Into ε ε'] {Q : Except ε' β → Conn S → Prop} (p : Handler S ε α)
    (f : α → Handler S ε' β) (c : Conn S) : (p.lift.bind f).wp flaky Q c ↔ p.wp flaky (fun r c =>
      match r with
      | .ok a => (f a).wp flaky Q c
      | .error e => Q (.error (Into.into e)) c) c :=
  (wp_bind _ _ _).trans (wp_lift _ _)

/-- **Soundness.**  A run ends in `Q` whenever the weakest precondition of `Q` holds, for
every choice of the calls that fail. -/
theorem wp_run (p : Handler S ε α) : ∀ (faults : List Bool) (c : Conn S),
    (true ∈ faults → flaky) → p.wp flaky Q c → Q (p.run faults c).1 (p.run faults c).2 := by
  induction p with
  | ret a => exact fun faults c _ hp => hp
  | fail e => exact fun faults c _ hp => hp
  | call o k ih =>
      intro faults c hf hp
      have htail : true ∈ faults.tail → flaky := fun h => hf (List.mem_of_mem_tail h)
      cases hhead : faults.headD false with
      | false =>
          simp only [run, hhead]
          exact ih _ _ _ htail hp.2
      | true =>
          have hmem : true ∈ faults := by cases faults <;> simp_all
          simp only [run, hhead]
          exact ih _ _ _ htail (hp.1 (hf hmem))

/-- A whole request leaves the committed tables behind. -/
theorem wp_serve {R : Except ε α → S.Store → Prop} (p : Handler S ε α) (faults : List Bool)
    (db : S.Store) (h : p.wp (true ∈ faults) (fun r c => R r c.db) { db }) :
    R (p.serve faults db).1 (p.serve faults db).2 :=
  wp_run (Q := fun r c => R r c.db) p faults { db } id h

theorem wp_attempt_bind {Q : Except ε' β → Conn S → Prop} (p : Handler S ε α)
    (f : Except ε α → Handler S ε' β) (c : Conn S) :
    (p.attempt.bind f).wp flaky Q c ↔ p.wp flaky (fun r c => (f r).wp flaky Q c) c :=
  (wp_bind _ _ _).trans (wp_attempt _ _)

section rules

variable {c : Conn S}

theorem wp_okOr (o : Option β) (e : ε) (f : β → Handler S ε α) :
    ((okOr o e).bind f).wp flaky Q c ↔
      (∀ b, o = some b → (f b).wp flaky Q c) ∧ (o = none → Q (.error e) c) := by
  cases o <;> simp

theorem wp_ofExcept [Into ε' ε] (x : Except ε' β) (f : β → Handler S ε α) :
    ((ofExcept x).bind f).wp flaky Q c ↔
      (∀ b, x = .ok b → (f b).wp flaky Q c) ∧ (∀ e, x = .error e → Q (.error (Into.into e)) c) := by
  cases x <;> simp

variable [Into SqlError ε]

/-- A statement works on the working copy, or on the tables themselves. -/
theorem wp_query (q : S.Stmt) (f : S.Ret q → Handler S ε α) :
    ((Handler.query q).bind f).wp flaky Q c ↔
      (flaky → Q (.error (Into.into SqlError.failed)) c) ∧
        match (S.sem q).exec S.clash c.view with
        | (.ok r, s) => (f r).wp flaky Q (c.put s)
        | (.error e, s) => Q (.error (Into.into e)) (c.put s) := by
  have h : ((Handler.query q).bind f : Handler S ε α) =
      .call (.sql q) fun r => (ofExcept r).bind f := rfl
  rw [h]
  refine and_congr Iff.rfl ?_
  show ((ofExcept ((S.sem q).exec S.clash c.view).1).bind f).wp flaky Q
    (c.put ((S.sem q).exec S.clash c.view).2) ↔ _
  rcases (S.sem q).exec S.clash c.view with ⟨r | r, s⟩ <;> rfl

end rules

end Prog

end SharpOauth
