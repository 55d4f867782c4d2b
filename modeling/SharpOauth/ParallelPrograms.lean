import SharpOauth.Sql

/-! # Programs that make the same calls

`p.Parallel R p'` says that the programs `p` and `p'` make the same calls, whatever the answers are,
and end in the same error or in results that `R` relates.  What the two leave in the database is then
the same (`Prog.parallel_run`), on every connection and whichever calls fail: the data in which `p` and
`p'` differ reaches the result and nothing else.

There is a rule for each way to build a program.  A sequence is parallel when its halves are, where
the second halves may differ in the related results of the first. -/

namespace SharpOauth

/-- Related results, or the same error. -/
inductive Matched {ε α : Type} (R : α → α → Prop) : Except ε α → Except ε α → Prop where
  | ok {a a' : α} (h : R a a') : Matched R (.ok a) (.ok a')
  | error (e : ε) : Matched R (.error e) (.error e)

namespace Prog

variable {S : Schema} {ε ε' α β : Type}

/-- The same calls, and matching results. -/
inductive Parallel (R : α → α → Prop) : Handler S ε α → Handler S ε α → Prop where
  | ret {a a' : α} (h : R a a') : Parallel R (.ret a) (.ret a')
  | fail (e : ε) : Parallel R (.fail e) (.fail e)
  | call (o : Call S) {k k' : o.Ans → Handler S ε α} (h : ∀ r, Parallel R (k r) (k' r)) :
      Parallel R (.call o k) (.call o k')

section rules

variable {R : α → α → Prop} {P : β → β → Prop}

/-- **Soundness.**  The two programs leave the same connection behind. -/
theorem parallel_run {p p' : Handler S ε α} (h : p.Parallel R p') : ∀ (faults : List Bool) (c : Conn S),
    Matched R (p.run faults c).1 (p'.run faults c).1 ∧ (p.run faults c).2 = (p'.run faults c).2 := by
  induction h with
  | ret h => exact fun faults c => ⟨.ok h, rfl⟩
  | fail e => exact fun faults c => ⟨.error e, rfl⟩
  | call o h ih =>
      intro faults c
      simp only [run]
      exact ih _ _ _

theorem parallel_self (hR : ∀ a, R a a) (p : Handler S ε α) : p.Parallel R p := by
  induction p with
  | ret a => exact .ret (hR a)
  | fail e => exact .fail e
  | call o k ih => exact .call o ih

theorem parallel_mono {R' : α → α → Prop} (hR : ∀ a a', R a a' → R' a a') {p p' : Handler S ε α}
    (h : p.Parallel R p') : p.Parallel R' p' := by
  induction h with
  | ret h => exact .ret (hR _ _ h)
  | fail e => exact .fail e
  | call o h ih => exact .call o ih

/-- Two sequences. -/
theorem parallel_bind {p p' : Handler S ε β} {f f' : β → Handler S ε α} (h : p.Parallel P p')
    (hf : ∀ b b', P b b' → (f b).Parallel R (f' b')) : (p.bind f).Parallel R (p'.bind f') := by
  induction h with
  | ret h => exact hf _ _ h
  | fail e => exact .fail e
  | call o h ih => exact .call o ih

/-- Two sequences with one first half. -/
theorem parallel_seq (p : Handler S ε β) {f f' : β → Handler S ε α}
    (hf : ∀ b, (f b).Parallel R (f' b)) : (p.bind f).Parallel R (p.bind f') := by
  refine parallel_bind (parallel_self (R := Eq) (fun _ => rfl) p) fun b b' h => ?_
  rw [← h]
  exact hf b

theorem parallel_lift [Into ε ε'] {p p' : Handler S ε α} (h : p.Parallel R p') :
    (p.lift : Handler S ε' α).Parallel R p'.lift := by
  induction h with
  | ret h => exact .ret h
  | fail e => exact .fail _
  | call o h ih => exact .call o ih

theorem parallel_attempt {p p' : Handler S ε α} (h : p.Parallel R p') :
    (p.attempt : Handler S ε' (Except ε α)).Parallel (Matched R) p'.attempt := by
  induction h with
  | ret h => exact .ret (.ok h)
  | fail e => exact .ret (.error e)
  | call o h ih => exact .call o ih

theorem parallel_ofExcept [Into ε ε'] {x x' : Except ε α} (h : Matched R x x') :
    (ofExcept x : Handler S ε' α).Parallel R (ofExcept x') := by
  cases h with
  | ok h => exact .ret h
  | error e => exact .fail _

end rules

end Prog

end SharpOauth
