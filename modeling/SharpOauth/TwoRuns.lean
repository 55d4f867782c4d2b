import SharpOauth.Sql

/-! # Two runs of a program

`p.agrees Q p' c c'` relates a run of `p` on the connection `c` to a run of `p'` on `c'` in which
the same calls fail: the runs make equally many calls, end in the same result, and leave
connections behind that `Q` relates.  It is the two-run counterpart of `Prog.wp`, with a rule for
each way to build a program.

The two programs are usually one program on two databases.  They may drift apart, where a
statement is answered differently, and agree nevertheless. -/

namespace SharpOauth

namespace Prog

variable {S : Schema} {ε ε' α β : Type}

/-- The two programs, run on the two connections with the same calls failing, end in the same
result and in connections that `Q` relates. -/
def agrees (Q : Except ε α → Conn S → Conn S → Prop) :
    Handler S ε α → Handler S ε α → Conn S → Conn S → Prop
  | .ret a, .ret a', c, c' => a = a' ∧ Q (.ok a) c c'
  | .fail e, .fail e', c, c' => e = e' ∧ Q (.error e) c c'
  | .call o k, .call o' k', c, c' =>
      (k (c.answer true o).1).agrees Q (k' (c'.answer true o').1)
          (c.answer true o).2 (c'.answer true o').2 ∧
        (k (c.answer false o).1).agrees Q (k' (c'.answer false o').1)
          (c.answer false o).2 (c'.answer false o').2
  | .ret _, .fail _, _, _ | .ret _, .call _ _, _, _ | .fail _, .ret _, _, _
  | .fail _, .call _ _, _, _ | .call _ _, .ret _, _, _ | .call _ _, .fail _, _, _ => False

section rules

variable {Q Q' : Except ε α → Conn S → Conn S → Prop} {p p' : Handler S ε α} {c c' : Conn S}

@[simp] theorem agrees_ret (a a' : α) :
    (ret a : Handler S ε α).agrees Q (ret a') c c' ↔ a = a' ∧ Q (.ok a) c c' := Iff.rfl

@[simp] theorem agrees_fail (e e' : ε) :
    (fail e : Handler S ε α).agrees Q (fail e') c c' ↔ e = e' ∧ Q (.error e) c c' := Iff.rfl

/-- **Soundness.**  The two runs end in the same result, whichever calls fail. -/
theorem agrees_run (p : Handler S ε α) : ∀ (p' : Handler S ε α) (faults : List Bool) (c c' : Conn S),
    p.agrees Q p' c c' → (p.run faults c).1 = (p'.run faults c').1 ∧
      Q (p.run faults c).1 (p.run faults c).2 (p'.run faults c').2 := by
  induction p with
  | ret a =>
      intro p' faults c c' h
      cases p' with
      | ret a' => exact ⟨congrArg Except.ok h.1, h.2⟩
      | fail e' => exact h.elim
      | call o' k' => exact h.elim
  | fail e =>
      intro p' faults c c' h
      cases p' with
      | ret a' => exact h.elim
      | fail e' => exact ⟨congrArg Except.error h.1, h.2⟩
      | call o' k' => exact h.elim
  | call o k ih =>
      intro p' faults c c' h
      cases p' with
      | ret a' => exact h.elim
      | fail e' => exact h.elim
      | call o' k' =>
          simp only [run]
          cases faults.headD false with
          | true => exact ih _ _ _ _ _ h.1
          | false => exact ih _ _ _ _ _ h.2

/-- Whole requests leave the committed tables behind. -/
theorem agrees_serve {R : Except ε α → S.Store → S.Store → Prop} (faults : List Bool)
    {db db' : S.Store} (h : p.agrees (fun r c c' => R r c.db c'.db) p' ⟨db, none⟩ ⟨db', none⟩) :
    (p.serve faults db).1 = (p'.serve faults db').1 ∧
      R (p.serve faults db).1 (p.serve faults db).2 (p'.serve faults db').2 :=
  agrees_run (Q := fun r c c' => R r c.db c'.db) p p' faults ⟨db, none⟩ ⟨db', none⟩ h

/-- Two programs in sequence agree where their first halves agree and leave connections behind on
which the second halves do. -/
theorem agrees_bind {P : Except ε β → Conn S → Conn S → Prop} {f f' : β → Handler S ε α}
    (hok : ∀ b c c', P (.ok b) c c' → (f b).agrees Q (f' b) c c')
    (herror : ∀ e c c', P (.error e) c c' → Q (.error e) c c') (p : Handler S ε β) :
    ∀ (p' : Handler S ε β) (c c' : Conn S), p.agrees P p' c c' →
      (p.bind f).agrees Q (p'.bind f') c c' := by
  induction p with
  | ret a =>
      intro p' c c' h
      cases p' with
      | ret a' =>
          obtain ⟨rfl, h⟩ := h
          exact hok a c c' h
      | fail e' => exact h.elim
      | call o' k' => exact h.elim
  | fail e =>
      intro p' c c' h
      cases p' with
      | ret a' => exact h.elim
      | fail e' => exact ⟨h.1, herror e c c' h.2⟩
      | call o' k' => exact h.elim
  | call o k ih =>
      intro p' c c' h
      cases p' with
      | ret a' => exact h.elim
      | fail e' => exact h.elim
      | call o' k' => exact ⟨ih _ _ _ _ h.1, ih _ _ _ _ h.2⟩

/-- Agreeing programs hand their callers the same error. -/
theorem agrees_attempt {Q : Except ε' (Except ε α) → Conn S → Conn S → Prop} (p : Handler S ε α) :
    ∀ (p' : Handler S ε α) (c c' : Conn S), p.agrees (fun r c c' => Q (.ok r) c c') p' c c' →
      p.attempt.agrees Q p'.attempt c c' := by
  induction p with
  | ret a =>
      intro p' c c' h
      cases p' with
      | ret a' => exact ⟨congrArg _ h.1, h.2⟩
      | fail e' => exact h.elim
      | call o' k' => exact h.elim
  | fail e =>
      intro p' c c' h
      cases p' with
      | ret a' => exact h.elim
      | fail e' => exact ⟨congrArg _ h.1, h.2⟩
      | call o' k' => exact h.elim
  | call o k ih =>
      intro p' c c' h
      cases p' with
      | ret a' => exact h.elim
      | fail e' => exact h.elim
      | call o' k' => exact ⟨ih _ _ _ _ h.1, ih _ _ _ _ h.2⟩

/-- Two options that are both there, or both not. -/
theorem agrees_okOr {o o' : Option β} {e : ε} {f f' : β → Handler S ε α}
    (hsome : ∀ b b', o = some b → o' = some b' → (f b).agrees Q (f' b') c c')
    (hnone : o = none ↔ o' = none) (herror : o = none → Q (.error e) c c') :
    ((okOr o e).bind f).agrees Q ((okOr o' e).bind f') c c' := by
  cases o with
  | none =>
      rw [hnone.1 rfl]
      exact ⟨rfl, herror rfl⟩
  | some b =>
      cases o' with
      | none => cases hnone.2 rfl
      | some b' => exact hsome b b' rfl rfl

theorem agrees_ofExcept [Into ε' ε] {x : Except ε' β} {f f' : β → Handler S ε α}
    (hok : ∀ b, x = .ok b → (f b).agrees Q (f' b) c c')
    (herror : ∀ e, x = .error e → Q (.error (Into.into e)) c c') :
    ((ofExcept x).bind f).agrees Q ((ofExcept x).bind f') c c' := by
  cases x with
  | ok b => exact hok b rfl
  | error e => exact ⟨rfl, herror e rfl⟩

section calls

variable [Into SqlError ε] {db db' s s' : S.Store}

/-- Two statements that succeed.  Their results may differ, if the programs agree on what follows. -/
theorem agrees_query {q q' : S.Stmt} {r : S.Ret q} {r' : S.Ret q'} {f : S.Ret q → Handler S ε α}
    {f' : S.Ret q' → Handler S ε α} (hfailed : Q (.error (Into.into SqlError.failed)) c c')
    (hr : ((S.sem q).exec S.clash c.view).1 = .ok r)
    (hr' : ((S.sem q').exec S.clash c'.view).1 = .ok r')
    (h : (f r).agrees Q (f' r') (c.put ((S.sem q).exec S.clash c.view).2)
      (c'.put ((S.sem q').exec S.clash c'.view).2)) :
    ((Handler.query q).bind f).agrees Q ((Handler.query q').bind f') c c' := by
  refine ⟨⟨rfl, hfailed⟩, ?_⟩
  show ((ofExcept ((S.sem q).exec S.clash c.view).1).bind f).agrees Q
    ((ofExcept ((S.sem q').exec S.clash c'.view).1).bind f') _ _
  rw [hr, hr']
  exact h

theorem agrees_begin {f f' : Unit → Handler S ε α}
    (hfailed : Q (.error (Into.into SqlError.failed)) ⟨db, none⟩ ⟨db', none⟩)
    (h : (f ()).agrees Q (f' ()) ⟨db, some db⟩ ⟨db', some db'⟩) :
    (Handler.begin.bind f).agrees Q (Handler.begin.bind f') ⟨db, none⟩ ⟨db', none⟩ :=
  ⟨⟨rfl, hfailed⟩, h⟩

theorem agrees_commit {f f' : Unit → Handler S ε α}
    (hfailed : Q (.error (Into.into SqlError.failed)) ⟨db, some s⟩ ⟨db', some s'⟩)
    (h : (f ()).agrees Q (f' ()) ⟨s, none⟩ ⟨s', none⟩) :
    (Handler.commit.bind f).agrees Q (Handler.commit.bind f') ⟨db, some s⟩ ⟨db', some s'⟩ :=
  ⟨⟨rfl, hfailed⟩, h⟩

end calls

/-- Two connections at the same point of a transaction, or both outside, whose tables `R` relates. -/
inductive Lockstep (R : S.Store → S.Store → Prop) : Conn S → Conn S → Prop where
  | outside {db db' : S.Store} (h : R db db') : Lockstep R ⟨db, none⟩ ⟨db', none⟩
  | inside {db db' s s' : S.Store} (h : R db db') (hs : R s s') :
      Lockstep R ⟨db, some s⟩ ⟨db', some s'⟩

/-- **Lockstep rule.**  Two runs of a program agree, where its statements are answered alike on
related tables and leave related tables behind. -/
theorem agrees_of_only {allowed : S.Stmt → Prop} {R : S.Store → S.Store → Prop}
    (hR : ∀ q s s', allowed q → R s s' →
      ((S.sem q).exec S.clash s).1 = ((S.sem q).exec S.clash s').1 ∧
        R ((S.sem q).exec S.clash s).2 ((S.sem q).exec S.clash s').2) {p : Handler S ε α}
    (hp : p.Only allowed) : ∀ c c', Lockstep R c c' → p.agrees (fun _ => Lockstep R) p c c' := by
  induction hp with
  | ret a => exact fun c c' h => ⟨rfl, h⟩
  | fail e => exact fun c c' h => ⟨rfl, h⟩
  | call o k ho hk ih =>
      intro c c' h
      cases o with
      | begin =>
          refine ⟨ih _ _ _ h, ?_⟩
          cases h with
          | outside h => exact ih _ _ _ (.inside h h)
          | inside h hs => exact ih _ _ _ (.inside h h)
      | commit =>
          refine ⟨ih _ _ _ h, ?_⟩
          cases h with
          | outside h => exact ih _ _ _ (.outside h)
          | inside h hs => exact ih _ _ _ (.outside hs)
      | sql q =>
          refine ⟨ih _ _ _ h, ?_⟩
          cases h with
          | @outside db db' h =>
              obtain ⟨hresult, hafter⟩ := hR q db db' (ho q rfl) h
              show (k ((S.sem q).exec S.clash db).1).agrees _ (k ((S.sem q).exec S.clash db').1) _ _
              rw [← hresult]
              exact ih _ _ _ (.outside hafter)
          | @inside db db' s s' h hs =>
              obtain ⟨hresult, hafter⟩ := hR q s s' (ho q rfl) hs
              show (k ((S.sem q).exec S.clash s).1).agrees _ (k ((S.sem q).exec S.clash s').1) _ _
              rw [← hresult]
              exact ih _ _ _ (.inside h hafter)

end rules

end Prog

end SharpOauth
