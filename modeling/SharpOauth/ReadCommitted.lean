import SharpOauth.Sql

/-! # Programs that run at the same time

Several programs run over one database, and the statements of their transactions interleave
(`Machine.step`), the way PostgreSQL interleaves them under READ COMMITTED:

* A statement sees what was committed when it started, and what its own transaction has written.
* An `UPDATE` or a `SELECT … FOR UPDATE` finds its rows in this snapshot and takes them one by one
  (`Scan`).  It waits while another transaction holds the next row; then it looks at the newest
  version of the row, and leaves it alone if the row no longer meets the condition.  Rows that are
  committed after the snapshot are not found.
* An `INSERT` waits while another transaction has written a row in its way.
* Row locks are held to the end of the transaction.  A statement outside a transaction is one of
  its own.
* A call may fail at any time, and its transaction is gone.  `DELETE` has no step.

A transaction is known by the versions of rows it has written (`Tx.log`), oldest first; they are
installed over the committed tables for its own statements, and for everybody when it commits.
The rows it has written are locked (`Machine.Exclusive`), so that no other transaction commits
versions of them, and the unique constraints hold among all that is committed
(`Machine.Apart.unique`). -/

namespace SharpOauth

variable {S : Schema} {ε α ι : Type}

/-! ### Versions of rows -/

/-- A version of a row. -/
structure Version (S : Schema) where
  table : S.Table
  row : S.Row table

/-- A row, in whichever version. -/
abbrev RowId (S : Schema) : Type := S.Table × S.Key

def Version.id (v : Version S) : RowId S := (v.table, S.key v.table v.row)

/-- Replace the row by this version, or add it. -/
def Version.put (v : Version S) (s : S.Store) : S.Store :=
  s.set v.table
    (if (s v.table).any (fun r => S.key v.table r = S.key v.table v.row) then
      (s v.table).map fun r => if S.key v.table r = S.key v.table v.row then v.row else r
    else s v.table ++ [v.row])

/-- The tables with the versions of a transaction. -/
def install (log : List (Version S)) (s : S.Store) : S.Store := log.foldl (fun s v => v.put s) s

section versions

variable {s : S.Store} {v : Version S} {log : List (Version S)} {t : S.Table} {r : S.Row t}

theorem Version.put_ne (h : t ≠ v.table) : v.put s t = s t := Store.set_ne s _ h

theorem Version.mem_put {r : S.Row v.table} : r ∈ v.put s v.table ↔
    r = v.row ∨ r ∈ s v.table ∧ S.key v.table r ≠ S.key v.table v.row := by
  rw [put, Store.set_same]
  split_ifs with hany
  · rw [List.mem_map]
    constructor
    · rintro ⟨x, hx, rfl⟩
      split_ifs with hkey
      · exact .inl rfl
      · exact .inr ⟨hx, hkey⟩
    · rintro (rfl | ⟨hr, hkey⟩)
      · obtain ⟨x, hx, hkey⟩ := List.any_eq_true.1 hany
        exact ⟨x, hx, if_pos (of_decide_eq_true hkey)⟩
      · exact ⟨r, hr, if_neg hkey⟩
  · rw [List.mem_append, List.mem_singleton, or_comm]
    refine or_congr_right ⟨fun hr => ⟨hr, fun hkey => hany ?_⟩, And.left⟩
    exact List.any_eq_true.2 ⟨r, hr, decide_eq_true hkey⟩

@[simp] theorem install_nil : install [] s = s := rfl

@[simp] theorem install_cons : install (v :: log) s = install log (v.put s) := rfl

theorem install_append (log' : List (Version S)) :
    install (log ++ log') s = install log' (install log s) := List.foldl_append

@[simp] theorem install_concat : install (log ++ [v]) s = v.put (install log s) :=
  install_append [v]

/-- Tables without a version stay. -/
theorem install_ne : ∀ {log : List (Version S)} {s : S.Store}, (∀ v ∈ log, v.table ≠ t) →
    install log s t = s t := by
  intro log
  induction log with
  | nil => exact fun _ => rfl
  | cons v log ih =>
      intro s h
      obtain ⟨hv, hlog⟩ := List.forall_mem_cons.1 h
      rw [install_cons, ih hlog, Version.put_ne hv.symm]

theorem mem_put_iff : r ∈ v.put s t ↔ v = ⟨t, r⟩ ∨ r ∈ s t ∧ v.id ≠ (t, S.key t r) := by
  obtain ⟨t', r'⟩ := v
  by_cases ht : t = t'
  · subst ht
    rw [Version.mem_put (v := ⟨t, r'⟩)]
    constructor
    · rintro (rfl | ⟨hr, hkey⟩)
      · exact .inl rfl
      · exact .inr ⟨hr, fun h => hkey (congrArg Prod.snd h).symm⟩
    · rintro (h | ⟨hr, hid⟩)
      · cases h
        exact .inl rfl
      · exact .inr ⟨hr, fun h => hid (Prod.ext rfl h.symm)⟩
  · rw [Version.put_ne ht, Version.id, Ne, Prod.mk.injEq]
    simp [Ne.symm ht]

/-- A row of the installed tables has a version of the transaction, or is none of its rows. -/
theorem mem_install : ∀ {log : List (Version S)} {s : S.Store}, r ∈ install log s t →
    (⟨t, r⟩ : Version S) ∈ log ∨ r ∈ s t ∧ ∀ v ∈ log, v.id ≠ (t, S.key t r) := by
  intro log
  induction log with
  | nil => exact fun h => .inr ⟨h, fun v hv => absurd hv List.not_mem_nil⟩
  | cons v log ih =>
      intro s h
      rcases ih h with hlog | ⟨hput, hlog⟩
      · exact .inl (List.mem_cons_of_mem v hlog)
      · rcases mem_put_iff.1 hput with rfl | ⟨hr, hid⟩
        · exact .inl List.mem_cons_self
        · exact .inr ⟨hr, List.forall_mem_cons.2 ⟨hid, hlog⟩⟩

/-- What the transaction has written does not depend on the tables. -/
theorem mem_install_iff {log : List (Version S)} : r ∈ install log s t ↔
    r ∈ install log (fun _ => []) t ∨ r ∈ s t ∧ ∀ v ∈ log, v.id ≠ (t, S.key t r) := by
  induction log using List.reverseRecOn with
  | nil => simp
  | append_singleton log v ih =>
      rw [install_concat, install_concat, mem_put_iff, mem_put_iff, ih]
      simp only [List.mem_append, List.mem_singleton]
      grind

/-- The newest version of a row is installed. -/
theorem exists_install {log : List (Version S)} (h : v ∈ log) :
    ∃ r ∈ install log s v.table, S.key v.table r = S.key v.table v.row := by
  induction log using List.reverseRecOn with
  | nil => exact absurd h List.not_mem_nil
  | append_singleton log u ih =>
      rw [install_concat]
      by_cases hid : u.id = v.id
      · obtain ⟨t, x⟩ := u
        obtain ⟨t', y⟩ := v
        obtain rfl : t = t' := congrArg Prod.fst hid
        exact ⟨x, Version.mem_put.2 (.inl rfl), congrArg Prod.snd hid⟩
      · have hlog : v ∈ log := by
          rcases List.mem_append.1 h with hv | hv
          · exact hv
          · exact absurd (congrArg Version.id (List.mem_singleton.1 hv)).symm hid
        obtain ⟨r, hr, hkey⟩ := ih hlog
        refine ⟨r, mem_put_iff.2 (.inr ⟨hr, ?_⟩), hkey⟩
        rwa [hkey]

/-- What is installed for a row that the transaction has written is one of its versions. -/
theorem exists_newest {log : List (Version S)} (h : (⟨t, r⟩ : Version S) ∈ log) :
    ∃ r' ∈ install log s t, (⟨t, r'⟩ : Version S) ∈ log ∧ S.key t r' = S.key t r := by
  obtain ⟨r', hr', hkey⟩ := exists_install (s := s) h
  refine ⟨r', hr', ?_, hkey⟩
  rcases mem_install hr' with hlog | ⟨-, hne⟩
  · exact hlog
  · exact absurd (congrArg (Prod.mk t) hkey.symm) (hne _ h)

/-- Other rows are as they were. -/
theorem mem_install_of_ne : ∀ {log : List (Version S)} {s : S.Store},
    (∀ v ∈ log, v.id ≠ (t, S.key t r)) → (r ∈ install log s t ↔ r ∈ s t) := by
  intro log
  induction log with
  | nil => exact fun _ => Iff.rfl
  | cons v log ih =>
      intro s h
      obtain ⟨hv, hlog⟩ := List.forall_mem_cons.1 h
      rw [install_cons, ih hlog, mem_put_iff]
      refine ⟨?_, fun hr => .inr ⟨hr, hv⟩⟩
      rintro (rfl | ⟨hr, -⟩)
      · exact absurd rfl hv
      · exact hr

/-- A row is replaced by its newest version, or stays. -/
theorem exists_install_of_mem {R : S.Row t → S.Row t → Prop} (hrefl : ∀ r, R r r) (hr : r ∈ s t)
    (hlog : ∀ r', (⟨t, r'⟩ : Version S) ∈ log → S.key t r' = S.key t r → R r r') :
    ∃ r' ∈ install log s t, S.key t r' = S.key t r ∧ R r r' := by
  by_cases hid : ∃ v ∈ log, v.id = (t, S.key t r)
  · obtain ⟨⟨t', x⟩, hv, hid⟩ := hid
    obtain rfl : t' = t := congrArg Prod.fst hid
    obtain ⟨r', hr', hv', hkey⟩ := exists_newest (s := s) hv
    have hkey' : S.key t' r' = S.key t' r := hkey.trans (congrArg Prod.snd hid)
    exact ⟨r', hr', hkey', hlog r' hv' hkey'⟩
  · exact ⟨r, (mem_install_of_ne fun v hv h => hid ⟨v, hv, h⟩).2 hr, rfl, hrefl r⟩

end versions

/-! ### The machine -/

/-- A statement that takes its rows one by one. -/
structure Scan (S : Schema) where
  /-- The tables the statement started on. -/
  snapshot : S.Store
  /-- The rows it has found and not taken yet. -/
  todo : List S.Key
  /-- The rows it has taken, as it leaves them. -/
  found : S.Store

/-- What a transaction has done. -/
structure Tx (S : Schema) where
  log : List (Version S) := []
  locks : List (RowId S) := []
  /-- Between `begin` and `commit`; otherwise every statement commits by itself. -/
  explicit : Bool := false

/-- A running program. -/
structure Thread (S : Schema) (ε α : Type) where
  prog : Handler S ε α
  tx : Tx S := {}
  scan : Option (Scan S) := none

/-- What happens to the committed tables, for the record. -/
inductive Entry (ι : Type) (S : Schema) where
  /-- A statement of the thread has seen these tables. -/
  | snapshot (i : ι) (q : S.Stmt) (s : S.Store)
  /-- A transaction of the thread has installed its versions over these tables. -/
  | commit (i : ι) (db : S.Store) (log : List (Version S))

def Entry.thread : Entry ι S → ι
  | .snapshot i _ _ => i
  | .commit i _ _ => i

/-- The committed tables, and how they came about, the latest first. -/
structure World (ι : Type) (S : Schema) where
  db : S.Store
  trace : List (Entry ι S) := []

def World.note (w : World ι S) (i : ι) (q : S.Stmt) (s : S.Store) : World ι S :=
  { w with trace := .snapshot i q s :: w.trace }

def World.commit (w : World ι S) (i : ι) (log : List (Version S)) : World ι S :=
  ⟨install log w.db, .commit i w.db log :: w.trace⟩

theorem World.commit_db (w : World ι S) (i : ι) (log : List (Version S)) :
    (w.commit i log).db = install log w.db := rfl

/-- Programs over one database. -/
structure Machine (ι : Type) (S : Schema) (ε α : Type) where
  world : World ι S
  threads : ι → Thread S ε α

/-- The tables a transaction sees. -/
def Tx.view (tx : Tx S) (db : S.Store) : S.Store := install tx.log db

/-- Write a version of a row that is locked from now on. -/
def Tx.write (tx : Tx S) (v : Version S) : Tx S :=
  { tx with log := tx.log ++ [v], locks := v.id :: tx.locks }

/-- The answer to a call that fails. -/
def Call.failed : (o : Call S) → o.Ans
  | .begin => .error .failed
  | .commit => .error .failed
  | .sql _ => .error .failed

/-- A statement that takes rows: the rows of `t` that meet `p`, and what becomes of them. -/
structure RowScan {Table : Type} (Row : Table → Type) (β : Type) where
  t : Table
  p : Store Row → Row t → Bool
  f : Option (Row t → Row t)
  out : List (Row t) → β

def Sql.rowScan {Table : Type} {Row : Table → Type} {β : Type} : Sql Row β → Option (RowScan Row β)
  | .lock t p out => some ⟨t, p, none, out⟩
  | .update t p f out => some ⟨t, p, some f, out⟩
  | .select _ | .insert _ _ _ | .upsert _ _ _ _ _ | .delete _ _ => none

namespace RowScan

variable {β : Type} (c : RowScan S.Row β)

/-- The rows the statement finds. -/
def start (s : S.Store) : Scan S where
  snapshot := s
  todo := ((s c.t).filter (c.p s)).map (S.key c.t)
  found := fun _ => []

/-- Lock a row, and change it in an `UPDATE`. -/
def take (tx : Tx S) (r : S.Row c.t) : Tx S × S.Row c.t :=
  match c.f with
  | none => ({ tx with locks := (c.t, S.key c.t r) :: tx.locks }, r)
  | some f => (tx.write ⟨c.t, f r⟩, f r)

/-- The next row, in its newest version. -/
def visit (snapshot : S.Store) (key : S.Key) (s : S.Store) (tx : Tx S) (found : S.Store) :
    Tx S × S.Store :=
  match (s c.t).find? fun r => S.key c.t r = key with
  | none => (tx, found)
  | some r =>
      if c.p snapshot r then ((c.take tx r).1, found.set c.t (found c.t ++ [(c.take tx r).2]))
      else (tx, found)

end RowScan

namespace Machine

variable [DecidableEq ι]

/-- The thread goes on, the committed tables stay. -/
def set (m : Machine ι S ε α) (i : ι) (θ : Thread S ε α) : Machine ι S ε α :=
  { m with threads := Function.update m.threads i θ }

/-- The transaction of the thread is committed, and its program goes on. -/
def commit (m : Machine ι S ε α) (i : ι) (tx : Tx S) (p : Handler S ε α) : Machine ι S ε α :=
  ⟨m.world.commit i tx.log, Function.update m.threads i { prog := p }⟩

/-- A statement has succeeded. -/
def answer (m : Machine ι S ε α) (i : ι) (tx : Tx S) (p : Handler S ε α) : Machine ι S ε α :=
  if tx.explicit then m.set i { prog := p, tx } else m.commit i tx p

/-- A statement has seen its snapshot. -/
def note (m : Machine ι S ε α) (i : ι) (q : S.Stmt) (s : S.Store) : Machine ι S ε α :=
  { m with world := m.world.note i q s }

variable [Fintype ι]

/-- Another transaction holds the row. -/
def held (m : Machine ι S ε α) (i : ι) (x : RowId S) : Bool :=
  decide (∃ j, j ≠ i ∧ x ∈ (m.threads j).tx.locks)

/-- Another transaction holds the row, or has written one that `r` clashes with. -/
def blocked (m : Machine ι S ε α) (i : ι) (t : S.Table) (r : S.Row t) : Bool :=
  decide (∃ j, j ≠ i ∧ ((t, S.key t r) ∈ (m.threads j).tx.locks ∨
    (install (m.threads j).tx.log (fun _ => []) t).any (S.clash t r) = true))

/-- An `INSERT`. -/
def insert (m : Machine ι S ε α) (i : ι) (tx : Tx S) (t : S.Table) (r : S.Row t)
    (k : Except SqlError Unit → Handler S ε α) : Option (Machine ι S ε α) :=
  if (tx.view m.world.db t).any (S.clash t r) then some (m.set i { prog := k (.error .duplicate) })
  else if m.blocked i t r then none
  else some (m.answer i (tx.write ⟨t, r⟩) (k (.ok ())))

/-- A statement starts. -/
def query (m : Machine ι S ε α) (i : ι) (tx : Tx S) (q : S.Stmt)
    (k : Except SqlError (S.Ret q) → Handler S ε α) : Option (Machine ι S ε α) :=
  let s := tx.view m.world.db
  match S.sem q with
  | .select f => some ((m.note i q s).set i { prog := k (.ok (f s)), tx })
  | .insert t r out => (m.note i q s).insert i tx t r fun a => k (a.map fun _ => out)
  | .upsert t r hit f out =>
      match (s t).find? hit with
      | none => (m.note i q s).insert i tx t r fun a => k (a.map fun _ => out)
      | some x =>
          if m.held i (t, S.key t x) then none
          else some ((m.note i q s).answer i (tx.write ⟨t, f x⟩) (k (.ok out)))
  | .lock t p out =>
      let c : RowScan S.Row (S.Ret q) := ⟨t, p, none, out⟩
      some ((m.note i q s).set i { prog := .call (.sql q) k, tx, scan := some (c.start s) })
  | .update t p f out =>
      let c : RowScan S.Row (S.Ret q) := ⟨t, p, some f, out⟩
      some ((m.note i q s).set i { prog := .call (.sql q) k, tx, scan := some (c.start s) })
  | .delete _ _ => none

/-- A statement goes on with its next row, or ends. -/
def resume (m : Machine ι S ε α) (i : ι) (tx : Tx S) (scan : Scan S) (q : S.Stmt)
    (k : Except SqlError (S.Ret q) → Handler S ε α) : Option (Machine ι S ε α) :=
  match (S.sem q).rowScan with
  | none => none
  | some c =>
      match scan.todo with
      | [] => some (m.answer i tx (k (.ok (c.out (scan.found c.t)))))
      | key :: rest =>
          if m.held i (c.t, key) then none
          else
            let r := c.visit scan.snapshot key (tx.view m.world.db) tx scan.found
            some (m.set i
              { prog := .call (.sql q) k
                tx := r.1
                scan := some { scan with todo := rest, found := r.2 } })

/-- One step of one thread; with `fault` its call fails. -/
def step (m : Machine ι S ε α) (i : ι) (fault : Bool) : Option (Machine ι S ε α) :=
  match (m.threads i).prog with
  | .ret a => if (m.threads i).tx.explicit then some (m.set i { prog := .ret a }) else none
  | .fail e => if (m.threads i).tx.explicit then some (m.set i { prog := .fail e }) else none
  | .call o k =>
      if fault then some (m.set i { prog := k o.failed })
      else
        match o with
        | .begin => some (m.set i { prog := k (.ok ()), tx := { explicit := true } })
        | .commit => some (m.commit i (m.threads i).tx (k (.ok ())))
        | .sql q =>
            match (m.threads i).scan with
            | none => m.query i (m.threads i).tx q k
            | some scan => m.resume i (m.threads i).tx scan q k

/-- The programs begin. -/
def start (programs : ι → Handler S ε α) (db : S.Store) : Machine ι S ε α :=
  ⟨{ db }, fun i => { prog := programs i }⟩

/-- A whole schedule. -/
def run (m : Machine ι S ε α) : List (ι × Bool) → Option (Machine ι S ε α)
  | [] => some m
  | (i, fault) :: rest => (m.step i fault).bind fun m' => m'.run rest

end Machine

/-! ### What a step can do -/

section steps

variable [DecidableEq ι] [Fintype ι]

/-- The row of an `INSERT`, or of one that found no row to update. -/
inductive Sql.Inserts {Table : Type} {Row : Table → Type} {β : Type} (s : Store Row) (t : Table)
    (r : Row t) (out : β) : Sql Row β → Prop where
  | insert : Inserts s t r out (.insert t r out)
  | upsert (hit : Row t → Bool) (f : Row t → Row t) (h : (s t).find? hit = none) :
      Inserts s t r out (.upsert t r hit f out)

/-- The steps of the `i`-th thread. -/
inductive Machine.Step (m : Machine ι S ε α) (i : ι) : Machine ι S ε α → Prop where
  | ended (h : (∃ a, (m.threads i).prog = .ret a) ∨ ∃ e, (m.threads i).prog = .fail e) :
      Step m i (m.set i { prog := (m.threads i).prog })
  | failed (o : Call S) (k : o.Ans → Handler S ε α) (hprog : (m.threads i).prog = .call o k) :
      Step m i (m.set i { prog := k o.failed })
  | begin (k : Except SqlError Unit → Handler S ε α) (hprog : (m.threads i).prog = .call .begin k) :
      Step m i (m.set i { prog := k (.ok ()), tx := { explicit := true } })
  | commit (k : Except SqlError Unit → Handler S ε α) (hprog : (m.threads i).prog = .call .commit k) :
      Step m i (m.commit i (m.threads i).tx (k (.ok ())))
  | select (q : S.Stmt) (k : Except SqlError (S.Ret q) → Handler S ε α)
      (hprog : (m.threads i).prog = .call (.sql q) k) (hscan : (m.threads i).scan = none)
      (f : S.Store → S.Ret q) (hq : S.sem q = .select f) :
      Step m i ((m.note i q ((m.threads i).tx.view m.world.db)).set i
        { prog := k (.ok (f ((m.threads i).tx.view m.world.db))), tx := (m.threads i).tx })
  | duplicate (q : S.Stmt) (k : Except SqlError (S.Ret q) → Handler S ε α)
      (hprog : (m.threads i).prog = .call (.sql q) k) (hscan : (m.threads i).scan = none)
      (t : S.Table) (r : S.Row t) (out : S.Ret q)
      (hq : (S.sem q).Inserts ((m.threads i).tx.view m.world.db) t r out)
      (hclash : ((m.threads i).tx.view m.world.db t).any (S.clash t r) = true) :
      Step m i ((m.note i q ((m.threads i).tx.view m.world.db)).set i
        { prog := k (.error .duplicate) })
  | inserted (q : S.Stmt) (k : Except SqlError (S.Ret q) → Handler S ε α)
      (hprog : (m.threads i).prog = .call (.sql q) k) (hscan : (m.threads i).scan = none)
      (t : S.Table) (r : S.Row t) (out : S.Ret q)
      (hq : (S.sem q).Inserts ((m.threads i).tx.view m.world.db) t r out)
      (hclash : ¬((m.threads i).tx.view m.world.db t).any (S.clash t r) = true)
      (hfree : m.blocked i t r = false) :
      Step m i ((m.note i q ((m.threads i).tx.view m.world.db)).answer i
        ((m.threads i).tx.write ⟨t, r⟩) (k (.ok out)))
  | upserted (q : S.Stmt) (k : Except SqlError (S.Ret q) → Handler S ε α)
      (hprog : (m.threads i).prog = .call (.sql q) k) (hscan : (m.threads i).scan = none)
      (t : S.Table) (r : S.Row t) (hit : S.Row t → Bool) (f : S.Row t → S.Row t) (out : S.Ret q)
      (hq : S.sem q = .upsert t r hit f out) (x : S.Row t)
      (hx : ((m.threads i).tx.view m.world.db t).find? hit = some x)
      (hfree : m.held i (t, S.key t x) = false) :
      Step m i ((m.note i q ((m.threads i).tx.view m.world.db)).answer i
        ((m.threads i).tx.write ⟨t, f x⟩) (k (.ok out)))
  | started (q : S.Stmt) (k : Except SqlError (S.Ret q) → Handler S ε α)
      (hprog : (m.threads i).prog = .call (.sql q) k) (hscan : (m.threads i).scan = none)
      (c : RowScan S.Row (S.Ret q)) (hc : (S.sem q).rowScan = some c) :
      Step m i ((m.note i q ((m.threads i).tx.view m.world.db)).set i
        { prog := .call (.sql q) k
          tx := (m.threads i).tx
          scan := some (c.start ((m.threads i).tx.view m.world.db)) })
  | visited (q : S.Stmt) (k : Except SqlError (S.Ret q) → Handler S ε α)
      (hprog : (m.threads i).prog = .call (.sql q) k) (scan : Scan S)
      (hscan : (m.threads i).scan = some scan) (c : RowScan S.Row (S.Ret q))
      (hc : (S.sem q).rowScan = some c) (key : S.Key) (rest : List S.Key)
      (htodo : scan.todo = key :: rest) (hfree : m.held i (c.t, key) = false) :
      Step m i (m.set i
        { prog := .call (.sql q) k
          tx := (c.visit scan.snapshot key ((m.threads i).tx.view m.world.db) (m.threads i).tx
            scan.found).1
          scan := some { scan with
            todo := rest
            found := (c.visit scan.snapshot key ((m.threads i).tx.view m.world.db)
              (m.threads i).tx scan.found).2 } })
  | finished (q : S.Stmt) (k : Except SqlError (S.Ret q) → Handler S ε α)
      (hprog : (m.threads i).prog = .call (.sql q) k) (scan : Scan S)
      (hscan : (m.threads i).scan = some scan) (c : RowScan S.Row (S.Ret q))
      (hc : (S.sem q).rowScan = some c) (htodo : scan.todo = []) :
      Step m i (m.answer i (m.threads i).tx (k (.ok (c.out (scan.found c.t)))))

variable {m m' : Machine ι S ε α} {i : ι}

theorem Machine.insert_cases {q : S.Stmt} {k : Except SqlError (S.Ret q) → Handler S ε α}
    (hprog : (m.threads i).prog = .call (.sql q) k) (hscan : (m.threads i).scan = none)
    {t : S.Table} {r : S.Row t} {out : S.Ret q}
    (hq : (S.sem q).Inserts ((m.threads i).tx.view m.world.db) t r out)
    (h : (m.note i q ((m.threads i).tx.view m.world.db)).insert i (m.threads i).tx t r
      (fun a => k (a.map fun _ => out)) = some m') : m.Step i m' := by
  rw [insert] at h
  split_ifs at h with hclash hblocked
  · obtain rfl := Option.some.inj h
    exact .duplicate q k hprog hscan t r out hq hclash
  · obtain rfl := Option.some.inj h
    exact .inserted q k hprog hscan t r out hq hclash (Bool.not_eq_true _ ▸ hblocked)

theorem Machine.query_cases {q : S.Stmt} {k : Except SqlError (S.Ret q) → Handler S ε α}
    (hprog : (m.threads i).prog = .call (.sql q) k) (hscan : (m.threads i).scan = none)
    (h : m.query i (m.threads i).tx q k = some m') : m.Step i m' := by
  unfold query at h
  dsimp only at h
  cases hq : S.sem q with
  | select f =>
      rw [hq] at h
      obtain rfl := Option.some.inj h
      exact .select q k hprog hscan f hq
  | lock t p out =>
      rw [hq] at h
      obtain rfl := Option.some.inj h
      exact .started q k hprog hscan ⟨t, p, none, out⟩ (by rw [hq]; rfl)
  | insert t r out =>
      rw [hq] at h
      exact insert_cases hprog hscan (hq ▸ .insert) h
  | upsert t r hit f out =>
      rw [hq] at h
      dsimp only at h
      cases hx : ((m.threads i).tx.view m.world.db t).find? hit with
      | none =>
          rw [hx] at h
          exact insert_cases hprog hscan (hq ▸ .upsert hit f hx) h
      | some x =>
          rw [hx] at h
          dsimp only at h
          split_ifs at h with hheld
          obtain rfl := Option.some.inj h
          exact .upserted q k hprog hscan t r hit f out hq x hx (Bool.not_eq_true _ ▸ hheld)
  | update t p f out =>
      rw [hq] at h
      obtain rfl := Option.some.inj h
      exact .started q k hprog hscan ⟨t, p, some f, out⟩ (by rw [hq]; rfl)
  | delete d out =>
      rw [hq] at h
      cases h

theorem Machine.resume_cases {q : S.Stmt} {k : Except SqlError (S.Ret q) → Handler S ε α}
    {scan : Scan S} (hprog : (m.threads i).prog = .call (.sql q) k)
    (hscan : (m.threads i).scan = some scan)
    (h : m.resume i (m.threads i).tx scan q k = some m') : m.Step i m' := by
  unfold resume at h
  cases hc : (S.sem q).rowScan with
  | none =>
      rw [hc] at h
      cases h
  | some c =>
      rw [hc] at h
      dsimp only at h
      cases htodo : scan.todo with
      | nil =>
          rw [htodo] at h
          obtain rfl := Option.some.inj h
          exact .finished q k hprog scan hscan c hc htodo
      | cons key rest =>
          rw [htodo] at h
          dsimp only at h
          split_ifs at h with hheld
          obtain rfl := Option.some.inj h
          exact .visited q k hprog scan hscan c hc key rest htodo (Bool.not_eq_true _ ▸ hheld)

/-- **What a step can do.** -/
theorem Machine.step_cases {fault : Bool} (h : m.step i fault = some m') : m.Step i m' := by
  unfold step at h
  cases hprog : (m.threads i).prog with
  | ret a =>
      rw [hprog] at h
      dsimp only at h
      split_ifs at h
      obtain rfl := Option.some.inj h
      rw [← hprog]
      exact .ended (.inl ⟨a, hprog⟩)
  | fail e =>
      rw [hprog] at h
      dsimp only at h
      split_ifs at h
      obtain rfl := Option.some.inj h
      rw [← hprog]
      exact .ended (.inr ⟨e, hprog⟩)
  | call o k =>
      rw [hprog] at h
      dsimp only at h
      split_ifs at h
      · obtain rfl := Option.some.inj h
        exact .failed o k hprog
      · cases o with
        | begin =>
            obtain rfl := Option.some.inj h
            exact .begin k hprog
        | commit =>
            obtain rfl := Option.some.inj h
            exact .commit k hprog
        | sql q =>
            dsimp only at h
            cases hscan : (m.threads i).scan with
            | none =>
                rw [hscan] at h
                exact query_cases hprog hscan h
            | some scan =>
                rw [hscan] at h
                exact resume_cases hprog hscan h

end steps

end SharpOauth
