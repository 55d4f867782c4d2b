import Mathlib

/-! # Interaction programs

A program that talks to a service is a tree: a leaf carries a result or an error, and every
inner node is one call together with the continuation that consumes the answer.  The tree
says which calls are made and in which order, and nothing about what the service does; a
semantics is a fold over the tree.  Several semantics of one program can therefore be
compared, and a program can be cut at any call and interleaved with others.

The first error ends a program (`Prog.bind`), and the error of a callee is converted on its
way up (`Prog.lift`, `Into`). -/

namespace SharpOauth

/-- Programs over the calls `Op` that end in an `α` or in an error of type `ε`;
`Ans o` is the type of the answers to the call `o`. -/
inductive Prog (Op : Type) (Ans : Op → Type) (ε α : Type) where
  | ret (a : α)
  | fail (e : ε)
  | call (o : Op) (k : Ans o → Prog Op Ans ε α)

/-- Conversion of an error on its way up. -/
class Into (ε ε' : Type) where
  into : ε → ε'

instance (ε : Type) : Into ε ε := ⟨id⟩

namespace Prog

variable {Op : Type} {Ans : Op → Type} {ε ε' α β γ : Type}

/-- Sequencing: an error of the first program ends both. -/
def bind : Prog Op Ans ε α → (α → Prog Op Ans ε β) → Prog Op Ans ε β
  | ret a, f => f a
  | fail e, _ => fail e
  | call o k, f => call o (fun r => (k r).bind f)

instance : Monad (Prog Op Ans ε) where
  pure := ret
  bind := bind

/-- The program with the errors of its caller. -/
def lift [Into ε ε'] : Prog Op Ans ε α → Prog Op Ans ε' α
  | ret a => ret a
  | fail e => fail (Into.into e)
  | call o k => call o (fun r => (k r).lift)

/-- The program that hands its caller the error as a value. -/
def attempt : Prog Op Ans ε α → Prog Op Ans ε' (Except ε α)
  | ret a => ret (.ok a)
  | fail e => ret (.error e)
  | call o k => call o (fun r => (k r).attempt)

/-- A pure computation as a program. -/
def ofExcept [Into ε ε'] : Except ε α → Prog Op Ans ε' α
  | .ok a => ret a
  | .error e => fail (Into.into e)

/-- The value of an option, or the given error. -/
def okOr (o : Option α) (e : ε) : Prog Op Ans ε α :=
  match o with
  | some a => ret a
  | none => fail e

@[simp] theorem pure_eq (a : α) : (pure a : Prog Op Ans ε α) = ret a := rfl

@[simp] theorem bind_eq (p : Prog Op Ans ε α) (f : α → Prog Op Ans ε β) : p >>= f = p.bind f := rfl

@[simp] theorem ret_bind (a : α) (f : α → Prog Op Ans ε β) : (ret a).bind f = f a := rfl

@[simp] theorem fail_bind (e : ε) (f : α → Prog Op Ans ε β) :
    (fail e : Prog Op Ans ε α).bind f = fail e := rfl

@[simp] theorem call_bind (o : Op) (k : Ans o → Prog Op Ans ε α) (f : α → Prog Op Ans ε β) :
    (call o k).bind f = call o (fun r => (k r).bind f) := rfl

theorem bind_assoc (p : Prog Op Ans ε α) (f : α → Prog Op Ans ε β) (g : β → Prog Op Ans ε γ) :
    (p.bind f).bind g = p.bind (fun a => (f a).bind g) := by
  induction p with
  | ret a => rfl
  | fail e => rfl
  | call o k ih =>
      simp only [call_bind]
      congr 1
      funext r
      exact ih r

@[simp] theorem bind_ret (p : Prog Op Ans ε α) : p.bind ret = p := by
  induction p with
  | ret a => rfl
  | fail e => rfl
  | call o k ih =>
      simp only [call_bind]
      congr 1
      funext r
      exact ih r

@[simp] theorem okOr_some (a : α) (e : ε) : (okOr (some a) e : Prog Op Ans ε α) = ret a := rfl

@[simp] theorem okOr_none (e : ε) : (okOr none e : Prog Op Ans ε α) = fail e := rfl

@[simp] theorem ofExcept_ok [Into ε ε'] (a : α) :
    (ofExcept (.ok a : Except ε α) : Prog Op Ans ε' α) = ret a := rfl

@[simp] theorem ofExcept_error [Into ε ε'] (e : ε) :
    (ofExcept (.error e : Except ε α) : Prog Op Ans ε' α) = fail (Into.into e) := rfl

/-! ### Runs

`answer` says what a call returns in a state, and which state it leaves behind. -/

section runs

variable {σ : Type} (answer : (o : Op) → σ → Ans o × σ)

/-- The result of a run, and the state after it. -/
def exec : Prog Op Ans ε α → σ → Except ε α × σ
  | ret a, s => (.ok a, s)
  | fail e, s => (.error e, s)
  | call o k, s => (k (answer o s).1).exec (answer o s).2

/-- The calls of a run, in order. -/
def record : Prog Op Ans ε α → σ → List Op
  | ret _, _ => []
  | fail _, _ => []
  | call o k, s => o :: (k (answer o s).1).record (answer o s).2

/-- The calls of a sequence are those of its first program, and then those of the second. -/
theorem record_bind (p : Prog Op Ans ε α) (f : α → Prog Op Ans ε β) : ∀ s, (p.bind f).record answer s =
    p.record answer s ++ match p.exec answer s with
      | (.ok a, s') => (f a).record answer s'
      | (.error _, _) => [] := by
  induction p with
  | ret a => exact fun s => rfl
  | fail e => exact fun s => rfl
  | call o k ih =>
      intro s
      simp only [call_bind, record, exec, List.cons_append, ih]

/-- Every call of the program is allowed, whatever the answers are. -/
inductive CallsOnly (allowed : Op → Prop) : Prog Op Ans ε α → Prop where
  | ret (a : α) : CallsOnly allowed (.ret a)
  | fail (e : ε) : CallsOnly allowed (.fail e)
  | call (o : Op) (k : Ans o → Prog Op Ans ε α) (ho : allowed o) (hk : ∀ r, CallsOnly allowed (k r)) :
      CallsOnly allowed (.call o k)

namespace CallsOnly

variable {allowed : Op → Prop}

theorem bind {p : Prog Op Ans ε α} {f : α → Prog Op Ans ε β} (hp : p.CallsOnly allowed)
    (hf : ∀ a, (f a).CallsOnly allowed) : (p.bind f).CallsOnly allowed := by
  induction hp with
  | ret a => exact hf a
  | fail e => exact .fail e
  | call o k ho hk ih => exact .call o _ ho ih

theorem attempt {p : Prog Op Ans ε α} (hp : p.CallsOnly allowed) :
    (p.attempt : Prog Op Ans ε' (Except ε α)).CallsOnly allowed := by
  induction hp with
  | ret a => exact .ret _
  | fail e => exact .ret _
  | call o k ho hk ih => exact .call o _ ho ih

theorem ofExcept [Into ε ε'] (x : Except ε α) :
    (Prog.ofExcept x : Prog Op Ans ε' α).CallsOnly allowed := by
  cases x with
  | ok a => exact .ret a
  | error e => exact .fail _

/-- **Every call of a run is allowed.** -/
theorem record {p : Prog Op Ans ε α} (hp : p.CallsOnly allowed) :
    ∀ s, ∀ o ∈ p.record answer s, allowed o := by
  induction hp with
  | ret a => exact fun s o ho => absurd ho List.not_mem_nil
  | fail e => exact fun s o ho => absurd ho List.not_mem_nil
  | call o k ho hk ih =>
      intro s o' ho'
      rcases List.mem_cons.1 ho' with rfl | ho'
      · exact ho
      · exact ih _ _ o' ho'

end CallsOnly

end runs

end Prog

/-! ### Checks

A chain of checks is an `Except` computation; `bind_eq_ok` and its instances for the single
checks read off what a chain that succeeded has established. -/

namespace Check

variable {ε α β : Type}

/-- The value of an option, or the given error. -/
def value (o : Option α) (e : ε) : Except ε α :=
  match o with
  | some a => .ok a
  | none => .error e

/-- Nothing, if the condition holds. -/
def that (b : Bool) (e : ε) : Except ε Unit := if b then .ok () else .error e

theorem bind_eq_ok {x : Except ε α} {f : α → Except ε β} {b : β} :
    (x >>= f) = .ok b ↔ ∃ a, x = .ok a ∧ f a = .ok b := by
  cases x with
  | error e =>
      constructor
      · exact fun h => nomatch h
      · rintro ⟨a, h, _⟩
        cases h
  | ok a =>
      constructor
      · exact fun h => ⟨a, rfl, h⟩
      · rintro ⟨a, h, h'⟩
        cases h
        exact h'

theorem bind_eq_error {x : Except ε α} {f : α → Except ε β} {e : ε} :
    (x >>= f) = .error e ↔ x = .error e ∨ ∃ a, x = .ok a ∧ f a = .error e := by
  cases x with
  | error e' =>
      constructor
      · exact fun h => .inl (by cases h; rfl)
      · rintro (h | ⟨a, h, _⟩)
        · cases h
          rfl
        · cases h
  | ok a =>
      constructor
      · exact fun h => .inr ⟨a, rfl, h⟩
      · rintro (h | ⟨a', h, h'⟩)
        · cases h
        · cases h
          exact h'

@[simp] theorem value_eq_ok {o : Option α} {e : ε} {a : α} : value o e = .ok a ↔ o = some a := by
  cases o <;> simp [value]

@[simp] theorem that_eq_ok {b : Bool} {e : ε} {u : Unit} : that b e = .ok u ↔ b = true := by
  cases b <;> simp [that]

@[simp] theorem value_eq_error {o : Option α} {e e' : ε} :
    value o e = .error e' ↔ o = none ∧ e = e' := by
  cases o <;> simp [value]

@[simp] theorem that_eq_error {b : Bool} {e e' : ε} :
    that b e = .error e' ↔ b = false ∧ e = e' := by
  cases b <;> simp [that]

end Check

end SharpOauth
